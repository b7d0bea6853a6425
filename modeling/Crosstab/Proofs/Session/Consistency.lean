import Crosstab.Pivot.Session
import Crosstab.Proofs.Pivot.Success

/-!
# Sessions over time

What edits and refreshes keep of a session, whatever the connection answers. The tree that a session
holds is always the one of its present layout. A view that is not stale is the last table that the
connection gave, and it gave it for the query of the present state; so rows of an earlier
configuration are never shown as current.
-/

namespace Crosstab

/-- A query and what a connection answered to it. -/
structure Exchange where
  query : Query
  answer : Except Error Table

def Exchange.given (e : Exchange) : Option (Query × Table) :=
  e.answer.toOption.map fun view => (e.query, view)

/-- The last rows that a connection gave, beside their query. -/
def lastGiven (log : List Exchange) : Option (Query × Table) :=
  (log.filterMap Exchange.given).getLast?

/-- A connection that answers as it is told, and writes down what it was asked. -/
def recorder (answer : Query → Except Error Table) : Connection (StateM (List Exchange)) where
  evaluate query := do
    modify (· ++ [⟨query, answer query⟩])
    return answer query

namespace Session

/-- What can happen to a session. A path of texts or of values names a node by its keys. -/
inductive Event
  | openPath (path : List PathKey)
  | closePath (path : List PathKey)
  | togglePath (path : List PathKey)
  | setOpenPaths (openPaths : OpenPaths)
  | setSortKey (keys : List SortKey)
  | setPivots (columns : List String)
  | setShowRoot (shown : Bool)
  /-- A refresh; the connection may give any answer to the query, rows or an error. -/
  | refresh (answer : Query → Except Error Table)

/-- The session after an event, and everything that the connection was asked by then. -/
def Event.run (s : Session) (log : List Exchange) : Event → Session × List Exchange
  | .openPath path => (s.openPath path, log)
  | .closePath path => (s.closePath path, log)
  | .togglePath path => (s.togglePath path, log)
  | .setOpenPaths openPaths => (s.setOpenPaths openPaths, log)
  | .setSortKey keys => (s.setSortKey keys, log)
  | .setPivots columns => (s.setPivots columns, log)
  | .setShowRoot shown => (s.setShowRoot shown, log)
  | .refresh answer =>
    let ((_, s), log) := (s.refresh (recorder answer)).run log
    (s, log)

/-- The states that events lead to from the start of a session, each with the exchanges so far. -/
inductive Reached (base : Query) (spec : PivotSpec) : Session → List Exchange → Prop where
  | start {s : Session} (started : Session.start base spec = .ok s) : Reached base spec s []
  | next {s : Session} {log : List Exchange} (event : Event) (before : Reached base spec s log) :
      Reached base spec (event.run s log).1 (event.run s log).2

/-- The session shows the last rows that the connection gave, and these are the answer to the query
of the present state. -/
def Current (s : Session) (log : List Exchange) : Prop :=
  ∃ tree query view, PivotTree.make s.base s.spec = .ok tree ∧
    tree.sortedTreeQuery s.openPaths s.rootOpen = .ok query ∧
    s.view = some view ∧ lastGiven log = some (query, view)

/-- The session is over its base query, holds the tree of its layout or none, and is stale or shows
current rows. -/
structure Consistent (base : Query) (s : Session) (log : List Exchange) : Prop where
  base : s.base = base
  tree : ∀ tree, s.tree = some tree → PivotTree.make s.base s.spec = .ok tree
  view : s.stale = false → s.Current log

variable {base : Query} {spec : PivotSpec} {s : Session} {log : List Exchange}

theorem start_consistent (h : start base spec = .ok s) : Consistent base s [] := by
  obtain ⟨tree, made, h⟩ := bind_eq_ok_iff.1 h
  obtain rfl := pure_eq_ok_iff.1 h
  refine ⟨rfl, fun other same => ?_, fun fresh => by cases fresh⟩
  cases same
  exact made

/-! ## Edits -/

/-- An edit that makes the session stale keeps it consistent if it leaves the layout alone. -/
theorem Consistent.edit {next : Session} (h : Consistent base s log) (same : next.base = s.base)
    (layout : next.spec = s.spec) (tree : next.tree = s.tree) (stale : next.stale = true) :
    Consistent base next log where
  base := same.trans h.base
  tree := by
    rw [same, layout, tree]
    exact h.tree
  view fresh := by rw [stale] at fresh; cases fresh

/-- An edit that makes the session stale keeps it consistent if it drops the tree. -/
theorem Consistent.relayout {next : Session} (h : Consistent base s log) (same : next.base = s.base)
    (tree : next.tree = none) (stale : next.stale = true) : Consistent base next log where
  base := same.trans h.base
  tree other held := by rw [tree] at held; cases held
  view fresh := by rw [stale] at fresh; cases fresh

theorem Consistent.openPath (h : Consistent base s log) (path : List PathKey) :
    Consistent base (s.openPath path) log := h.edit rfl rfl rfl rfl

theorem Consistent.closePath (h : Consistent base s log) (path : List PathKey) :
    Consistent base (s.closePath path) log := h.edit rfl rfl rfl rfl

theorem Consistent.togglePath (h : Consistent base s log) (path : List PathKey) :
    Consistent base (s.togglePath path) log := by
  unfold Session.togglePath
  split
  · exact h.closePath path
  · exact h.openPath path

/-! ## Refreshes -/

theorem Consistent.currentTree {tree : PivotTree} (h : Consistent base s log)
    (found : s.currentTree = .ok tree) : PivotTree.make s.base s.spec = .ok tree := by
  unfold Session.currentTree at found
  split at found
  · next held => exact h.tree tree (held.trans (congrArg some (Except.ok.inj found)))
  · exact found

/-- A tree of the layout may be put in place. -/
theorem Consistent.keepTree {tree : PivotTree} (h : Consistent base s log)
    (made : PivotTree.make s.base s.spec = .ok tree) :
    Consistent base { s with tree := some tree } log where
  base := h.base
  tree other held := by
    cases held
    exact made
  view fresh := h.view fresh

/-- Where the query cannot be made, the connection is not asked. -/
theorem run_refresh_of_error {answer : Query → Except Error Table} {e : Error} {next : Session}
    (prepared : s.prepare = (.error e, next)) :
    (Event.refresh answer).run s log = (next, log) := by
  simp only [Event.run, Session.refresh, prepared]
  rfl

/-- Where the query can be made, the connection is asked for its rows. -/
theorem run_refresh_of_query {answer : Query → Except Error Table} {query : Query} {next : Session}
    (prepared : s.prepare = (.ok query, next)) :
    (Event.refresh answer).run s log =
      (match answer query with
        | .ok view => next.receive view
        | .error _ => next,
      log ++ [⟨query, answer query⟩]) := by
  simp only [Event.run, Session.refresh, prepared, recorder, bind_assoc, pure_bind]
  cases answer query <;> rfl

theorem lastGiven_append_error (query : Query) (e : Error) :
    lastGiven (log ++ [⟨query, .error e⟩]) = lastGiven log := by
  simp [lastGiven, Exchange.given, Except.toOption]

theorem lastGiven_append_ok (query : Query) (view : Table) :
    lastGiven (log ++ [⟨query, .ok view⟩]) = some (query, view) := by
  simp [lastGiven, Exchange.given, Except.toOption]

/-- An answer that is an error changes nothing. -/
theorem Consistent.refused (h : Consistent base s log) (query : Query) (e : Error) :
    Consistent base s (log ++ [⟨query, .error e⟩]) where
  base := h.base
  tree := h.tree
  view fresh := by
    obtain ⟨tree, current, view, made, asked, shown, last⟩ := h.view fresh
    exact ⟨tree, current, view, made, asked, shown, (lastGiven_append_error query e).trans last⟩

/-- Rows that answer the query of the present state are current. -/
theorem Consistent.received {tree : PivotTree} {query : Query} (h : Consistent base s log)
    (made : PivotTree.make s.base s.spec = .ok tree)
    (asked : tree.sortedTreeQuery s.openPaths s.rootOpen = .ok query) (view : Table) :
    Consistent base (s.receive view) (log ++ [⟨query, .ok view⟩]) where
  base := h.base
  tree := h.tree
  view _ := ⟨tree, query, view, made, asked, rfl, lastGiven_append_ok query view⟩

/-- A refresh keeps a session consistent, whether it fails at the tree, at the query or at the
connection, or succeeds. -/
theorem Consistent.refresh (h : Consistent base s log) (answer : Query → Except Error Table) :
    Consistent base ((Event.refresh answer).run s log).1 ((Event.refresh answer).run s log).2 := by
  cases found : s.currentTree with
  | error e =>
    have prepared : s.prepare = (.error e, s) := by rw [prepare, found]
    rw [run_refresh_of_error prepared]
    exact h
  | ok tree =>
    have made := h.currentTree found
    have kept := h.keepTree made
    have prepared : s.prepare =
        (tree.sortedTreeQuery s.openPaths s.rootOpen, { s with tree := some tree }) := by
      rw [prepare, found]
    cases asked : tree.sortedTreeQuery s.openPaths s.rootOpen with
    | error e =>
      rw [asked] at prepared
      rw [run_refresh_of_error prepared]
      exact kept
    | ok query =>
      rw [asked] at prepared
      rw [run_refresh_of_query prepared]
      cases answer query with
      | error e => exact kept.refused query e
      | ok view => exact kept.received made asked view

/-! ## Runs -/

theorem Consistent.run (h : Consistent base s log) (event : Event) :
    Consistent base (event.run s log).1 (event.run s log).2 := by
  cases event with
  | openPath path => exact h.openPath path
  | closePath path => exact h.closePath path
  | togglePath path => exact h.togglePath path
  | setOpenPaths openPaths => exact h.edit rfl rfl rfl rfl
  | setSortKey keys => exact h.relayout rfl rfl rfl
  | setPivots columns => exact h.relayout rfl rfl rfl
  | setShowRoot shown => exact h.relayout rfl rfl rfl
  | refresh answer => exact h.refresh answer

def runs (s : Session) (log : List Exchange) (events : List Event) : Session × List Exchange :=
  events.foldl (fun (s, log) event => event.run s log) (s, log)

theorem Reached.runs (h : Reached base spec s log) (events : List Event) :
    Reached base spec (s.runs log events).1 (s.runs log events).2 := by
  induction events generalizing s log with
  | nil => exact h
  | cons event events ih => exact ih (.next event h)

theorem Reached.consistent (h : Reached base spec s log) : Consistent base s log := by
  induction h with
  | start started => exact start_consistent started
  | next event _ ih => exact ih.run event

/-- In every state that a session can reach, the tree that it holds is what its base query and
present layout make. If it is not stale, it has a view, and the view is the last table that the
connection gave, as the answer to the sorted tree query of the present base query, layout, open
paths and root. -/
theorem reached_consistent (h : Reached base spec s log) :
    s.base = base ∧
    (∀ tree, s.tree = some tree → PivotTree.make s.base s.spec = .ok tree) ∧
    (s.stale = false → s.Current log) := by
  have consistent := h.consistent
  exact ⟨consistent.base, consistent.tree, consistent.view⟩

def noSales : Table := ⟨PivotTree.productSales.schema, []⟩

/-- A view, an edit, a refresh that fails, another edit, a second view, and a refresh that fails
while the view is current. -/
def salesEvents : List Event :=
  [.refresh fun _ => .ok noSales, .openPath [none, some "7"],
    .refresh fun _ => .error (.build .nothingToShow), .setSortKey [.asc "amount"],
    .refresh fun q => .ok ⟨q.schema, []⟩, .refresh fun _ => .error (.build .nothingToShow)]

theorem reached_consistent_productSales : ∃ s log,
    Reached PivotTree.productSales PivotTree.byRegion s log ∧ s.stale = false ∧ log.length = 4 ∧
      s.Current log := by
  obtain ⟨first, started⟩ : ∃ s, start PivotTree.productSales PivotTree.byRegion = .ok s := ⟨_, rfl⟩
  have shown : (start PivotTree.productSales PivotTree.byRegion).toOption.map (fun s =>
      ((s.runs [] salesEvents).1.stale, (s.runs [] salesEvents).2.length)) = some (false, 4) := by
    decide +kernel
  rw [started] at shown
  obtain ⟨fresh, four⟩ := Prod.mk.inj (Option.some.inj shown)
  have reached := (Reached.start started).runs salesEvents
  obtain ⟨-, -, current⟩ := reached_consistent reached
  exact ⟨_, _, reached, fresh, four, current fresh⟩

end Session

end Crosstab
