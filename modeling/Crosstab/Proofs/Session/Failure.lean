import Crosstab.Proofs.Pivot.Children
import Crosstab.Proofs.Session.Consistency

/-!
# Refreshes that fail

A refresh fails at the tree of the layout, at the query for its rows, or at the connection, which
compiles the query before it runs it. All that a failed refresh may leave behind is a tree where the
session held none. Nobody can tell: a session uses its tree only by way of `Session.currentTree`,
and a session without a tree would make the same one.

* `Session.Sight` is what can be seen of a session right after an event, and `Session.sights` what
  is seen during a run of events;
* sessions that are `Session.Alike` stay so under every event (`Alike.run`), so they look the same
  ever after (`Alike.runs`);
* `Session.refresh_of_error` is the statement.
-/

namespace Crosstab

namespace Session

variable {s other next : Session} {log later : List Exchange} {answer : Query → Except Error Table}

/-! ## What can be seen -/

/-- What can be seen of a session right after an event. -/
structure Sight where
  /-- What the event returned, if it was a refresh. -/
  result : Option (Except Error Table)
  spec : PivotSpec
  openPaths : OpenPaths
  isOpen : List PathKey → Bool
  rootOpen : Bool
  stale : Bool
  view : Option Table

/-- What an event returns; only a refresh returns anything. -/
def Event.result (s : Session) (log : List Exchange) : Event → Option (Except Error Table)
  | .refresh answer => some ((s.refresh (recorder answer)).run log).1.1
  | _ => none

/-- A session after an event that returned something. -/
def sight (s : Session) (result : Option (Except Error Table)) : Sight :=
  ⟨result, s.spec, s.openPaths, s.isOpen, s.rootOpen, s.stale, s.view⟩

/-- What is seen during a run of events, event by event. -/
def sights (s : Session) (log : List Exchange) : List Event → List Sight
  | [] => []
  | event :: events =>
    (event.run s log).1.sight (event.result s log) ::
      sights (event.run s log).1 (event.run s log).2 events

/-! ## Where a refresh fails -/

theorem result_refresh_of_error {e : Error} (prepared : s.prepare = (.error e, next)) :
    (Event.refresh answer).result s log = some (.error e) := by
  simp only [Event.result, refresh, prepared]
  rfl

theorem result_refresh_of_query {query : Query} (prepared : s.prepare = (.ok query, next)) :
    (Event.refresh answer).result s log = some (answer query) := by
  simp only [Event.result, refresh, prepared, recorder, bind_assoc, pure_bind]
  cases answer query <;> rfl

theorem prepare_of_error {e : Error} (found : s.currentTree = .error e) :
    s.prepare = (.error e, s) := by
  rw [prepare, found]

theorem prepare_of_tree {tree : PivotTree} (found : s.currentTree = .ok tree) :
    s.prepare = (tree.sortedTreeQuery s.openPaths s.rootOpen, { s with tree := some tree }) := by
  rw [prepare, found]

/-- A refresh fails because there is no tree of the layout, because the tree has no query, or
because the connection cannot compile or answer the query. -/
theorem result_refresh_eq_error_iff {e : Error} :
    (Event.refresh answer).result s log = some (.error e) ↔
      s.currentTree = .error e ∨
      ∃ tree, s.currentTree = .ok tree ∧
        (tree.sortedTreeQuery s.openPaths s.rootOpen = .error e ∨
        ∃ query, tree.sortedTreeQuery s.openPaths s.rootOpen = .ok query ∧
          answer query = .error e) := by
  cases found : s.currentTree with
  | error why =>
    rw [result_refresh_of_error (prepare_of_error found)]
    simp
  | ok tree =>
    have prepared := prepare_of_tree found
    cases asked : tree.sortedTreeQuery s.openPaths s.rootOpen with
    | error why =>
      rw [asked] at prepared
      rw [result_refresh_of_error prepared]
      simp [asked]
    | ok query =>
      rw [asked] at prepared
      rw [result_refresh_of_query prepared]
      simp [asked]

/-! ## Sessions that differ in the tree they hold -/

/-- The other session is this one, with a tree in place or removed that makes no difference to the
tree of the layout. -/
def Alike (s other : Session) : Prop :=
  ∃ tree, other = { s with tree := tree } ∧ other.currentTree = s.currentTree

theorem Alike.refl (s : Session) : Alike s s := ⟨s.tree, rfl, rfl⟩

/-- The tree of the layout may be put in place. -/
theorem alike_of_currentTree {tree : PivotTree} (found : s.currentTree = .ok tree) :
    Alike s { s with tree := some tree } := ⟨some tree, rfl, found.symm⟩

theorem Alike.sight_eq (h : Alike s other) (result : Option (Except Error Table)) :
    s.sight result = other.sight result := by
  obtain ⟨tree, rfl, -⟩ := h
  rfl

theorem Alike.receive (h : Alike s other) (view : Table) :
    Alike (s.receive view) (other.receive view) := by
  obtain ⟨tree, rfl, same⟩ := h
  exact ⟨tree, rfl, same⟩

/-- The first half of a refresh gives the same query, or the same error, and leaves the sessions
alike. -/
theorem Alike.prepare (h : Alike s other) :
    s.prepare.1 = other.prepare.1 ∧ Alike s.prepare.2 other.prepare.2 := by
  obtain ⟨held, rfl, same⟩ := h
  cases found : s.currentTree with
  | error e =>
    rw [prepare_of_error found, prepare_of_error (same.trans found)]
    exact ⟨rfl, held, rfl, same⟩
  | ok tree =>
    rw [prepare_of_tree found, prepare_of_tree (same.trans found)]
    exact ⟨rfl, Alike.refl _⟩

/-- After an event, two sessions that were alike are alike, the event returned the same in both, and
the connection was asked the same by both. -/
def SameAfter (event : Event) (s other : Session) (log later : List Exchange) : Prop :=
  Alike (event.run s log).1 (event.run other later).1 ∧
  event.result s log = event.result other later ∧
  ∃ asked, (event.run s log).2 = log ++ asked ∧ (event.run other later).2 = later ++ asked

/-- An event that asks nothing need only leave the sessions alike. -/
theorem sameAfter_of_edit {event : Event} (h : Alike (event.run s log).1 (event.run other later).1)
    (returns : event.result s log = event.result other later)
    (silent : ∀ s log, (event.run s log).2 = log) : SameAfter event s other log later := by
  refine ⟨h, returns, [], ?_, ?_⟩
  · rw [silent, List.append_nil]
  · rw [silent, List.append_nil]

theorem Alike.togglePath (h : Alike s other) (path : List PathKey) :
    Alike (s.togglePath path) (other.togglePath path) := by
  obtain ⟨tree, rfl, same⟩ := h
  have agree : isOpen { s with tree := tree } path = s.isOpen path := rfl
  unfold Session.togglePath
  rw [agree]
  by_cases opened : s.isOpen path = true
  · rw [if_pos opened, if_pos opened]
    exact ⟨tree, rfl, same⟩
  · rw [if_neg opened, if_neg opened]
    exact ⟨tree, rfl, same⟩

theorem Alike.refresh (h : Alike s other) : SameAfter (.refresh answer) s other log later := by
  obtain ⟨agree, alike⟩ := h.prepare
  cases mine : s.prepare with
  | mk result first =>
    cases theirs : other.prepare with
    | mk same second =>
      rw [mine, theirs] at agree alike
      cases agree
      cases result with
      | error e =>
        refine ⟨?_, ?_, [], ?_⟩
        · rw [run_refresh_of_error mine, run_refresh_of_error theirs]
          exact alike
        · rw [result_refresh_of_error mine, result_refresh_of_error theirs]
        · rw [run_refresh_of_error mine, run_refresh_of_error theirs]
          simp only [List.append_nil, and_self]
      | ok query =>
        -- both ask the connection the same, and it answers by the query alone
        refine ⟨?_, ?_, [⟨query, answer query⟩], ?_⟩
        · rw [run_refresh_of_query mine, run_refresh_of_query theirs]
          cases answer query with
          | error e => exact alike
          | ok view => exact alike.receive view
        · rw [result_refresh_of_query mine, result_refresh_of_query theirs]
        · rw [run_refresh_of_query mine, run_refresh_of_query theirs]
          exact ⟨rfl, rfl⟩

/-- No event tells sessions apart that are alike. -/
theorem Alike.run (h : Alike s other) (event : Event) (log later : List Exchange) :
    SameAfter event s other log later := by
  cases event with
  | refresh answer => exact h.refresh
  | togglePath path =>
    exact sameAfter_of_edit (h.togglePath path) rfl fun _ _ => rfl
  | openPath | closePath | setOpenPaths =>
    obtain ⟨tree, rfl, same⟩ := h
    exact sameAfter_of_edit ⟨tree, rfl, same⟩ rfl fun _ _ => rfl
  -- a change of the layout drops the tree
  | setSortKey | setPivots | setShowRoot =>
    obtain ⟨tree, rfl, -⟩ := h
    exact sameAfter_of_edit (Alike.refl _) rfl fun _ _ => rfl

/-- No run of events tells sessions apart that are alike. -/
theorem Alike.runs (h : Alike s other) (events : List Event) (log later : List Exchange) :
    s.sights log events = other.sights later events ∧
    ∃ asked, (s.runs log events).2 = log ++ asked ∧
      (other.runs later events).2 = later ++ asked := by
  induction events generalizing s other log later with
  | nil => exact ⟨rfl, [], (List.append_nil _).symm, (List.append_nil _).symm⟩
  | cons event events ih =>
    obtain ⟨alike, returns, first, mine, theirs⟩ := h.run event log later
    obtain ⟨seen, rest, asked, answered⟩ :=
      ih alike (event.run s log).2 (event.run other later).2
    constructor
    · rw [sights, sights, alike.sight_eq, returns, seen]
    · refine ⟨first ++ rest, ?_, ?_⟩
      · rw [← List.append_assoc, ← mine]
        exact asked
      · rw [← List.append_assoc, ← theirs]
        exact answered

/-! ## A failed refresh -/

/-- A failed refresh leaves a session alike, wherever it failed. -/
theorem alike_of_failed {e : Error}
    (failed : (Event.refresh answer).result s log = some (.error e)) :
    Alike s ((Event.refresh answer).run s log).1 := by
  obtain noTree | ⟨tree, found, noQuery | ⟨query, asked, refused⟩⟩ :=
    result_refresh_eq_error_iff.1 failed
  · rw [run_refresh_of_error (prepare_of_error noTree)]
    exact Alike.refl s
  · have prepared := prepare_of_tree found
    rw [noQuery] at prepared
    rw [run_refresh_of_error prepared]
    exact alike_of_currentTree found
  · have prepared := prepare_of_tree found
    rw [asked] at prepared
    rw [run_refresh_of_query prepared, refused]
    exact alike_of_currentTree found

/-- A refresh that returns an error leaves the layout, the open paths, the root, the view and its
staleness as they were, in every state of a session. Whatever events follow, everything that they
return and all that is seen of the session after each of them is as it would have been without the
refresh, and so is what the connection is asked from then on and what it answers. -/
theorem refresh_of_error {e : Error}
    (failed : (Event.refresh answer).result s log = some (.error e)) :
    let after := (Event.refresh answer).run s log
    (after.1.spec = s.spec ∧ after.1.openPaths = s.openPaths ∧ after.1.rootOpen = s.rootOpen ∧
      after.1.stale = s.stale ∧ after.1.view = s.view) ∧
    ∀ events, after.1.sights after.2 events = s.sights log events ∧
      ∃ asked, (after.1.runs after.2 events).2 = after.2 ++ asked ∧
        (s.runs log events).2 = log ++ asked := by
  have alike := alike_of_failed failed
  constructor
  · obtain ⟨tree, same, -⟩ := alike
    rw [same]
    exact ⟨rfl, rfl, rfl, rfl, rfl⟩
  · intro events
    obtain ⟨seen, asked, mine, theirs⟩ := alike.runs events log ((Event.refresh answer).run s log).2
    exact ⟨seen.symm, asked, theirs, mine⟩

theorem start_self {base : Query} {spec : PivotSpec} (h : start base spec = .ok s) :
    start s.base s.spec = .ok s := by
  obtain ⟨tree, -, rest⟩ := bind_eq_ok_iff.1 h
  obtain rfl := pure_eq_ok_iff.1 rest
  exact h

def refuse (_ : Query) : Except Error Table := .error (.compile .nulInText)

/-- Events after which a refresh fails, and why: there is no tree of the layout; there is a tree
without a query, as a column of the readings is named like a path column; the connection refuses
the query. -/
def failures (sales readings : Session) : List (Session × List Event × Error) :=
  [(sales, [.setPivots ["nowhere"]], .build (.unknownPivot "nowhere")),
    (sales, [.setSortKey [.asc "nothing"]], .build (.unknownSortKey "nothing")),
    (readings, [.setPivots ["group"]], .build (.columnExists "_path0")),
    (sales, [.refresh fun _ => .ok noSales, .openPath [none]], .compile .nulInText)]

def failsWith (e : Error) : Except Error Table → Bool
  | .error why => decide (why = e)
  | .ok _ => false

theorem refresh_of_error_failures : ∃ sales readings,
    start PivotTree.productSales PivotTree.byRegion = .ok sales ∧
    start PivotTree.capitalReadings .default = .ok readings ∧
    ∀ failure ∈ failures sales readings, ∃ s log, failure.1.runs [] failure.2.1 = (s, log) ∧
      Reached failure.1.base failure.1.spec s log ∧
      (Event.refresh refuse).result s log = some (.error failure.2.2) ∧
      ((Event.refresh refuse).run s log).1.view = s.view ∧
      ((Event.refresh refuse).run s log).1.sights ((Event.refresh refuse).run s log).2 salesEvents =
        s.sights log salesEvents := by
  obtain ⟨sales, salesStarted⟩ :
    ∃ s, start PivotTree.productSales PivotTree.byRegion = .ok s := ⟨_, rfl⟩
  obtain ⟨readings, readingsStarted⟩ :
    ∃ s, start PivotTree.capitalReadings .default = .ok s := ⟨_, rfl⟩
  have fails : ((start PivotTree.productSales PivotTree.byRegion).toOption.bind fun sales =>
      (start PivotTree.capitalReadings .default).toOption.map fun readings =>
        (failures sales readings).all fun failure =>
          let reached := failure.1.runs [] failure.2.1
          ((Event.refresh refuse).result reached.1 reached.2).any (failsWith failure.2.2)) =
        some true := by
    decide +kernel
  rw [salesStarted, readingsStarted] at fails
  refine ⟨sales, readings, salesStarted, readingsStarted, fun failure listed => ?_⟩
  have failed := List.all_eq_true.1 (Option.some.inj fails) failure listed
  have started : start failure.1.base failure.1.spec = .ok failure.1 := by
    simp only [failures, List.mem_cons, List.not_mem_nil, or_false] at listed
    obtain rfl | rfl | rfl | rfl := listed
    · exact start_self salesStarted
    · exact start_self salesStarted
    · exact start_self readingsStarted
    · exact start_self salesStarted
  obtain ⟨result, returned, same⟩ := (Option.any_eq_true _ _).1 failed
  cases result with
  | ok view => cases same
  | error why =>
    obtain rfl : why = failure.2.2 := of_decide_eq_true same
    obtain ⟨⟨-, -, -, -, view⟩, unseen⟩ := refresh_of_error returned
    obtain ⟨seen, -⟩ := unseen salesEvents
    exact ⟨_, _, rfl, (Reached.start started).runs failure.2.1, returned, view, seen⟩

end Session

end Crosstab
