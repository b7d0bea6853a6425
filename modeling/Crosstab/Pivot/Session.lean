import Crosstab.Pivot.Tree
import Crosstab.Table

/-!
# Pivot sessions

An interactive pivot tree, whose root starts expanded. Edits only record what changed and make the
view stale; the view is made anew by a refresh, which asks a connection for the rows of the tree.
Where the refresh fails, the session keeps its view and stays stale.
-/

namespace Crosstab

/-- Something that evaluates queries. -/
structure Connection (m : Type → Type) where
  evaluate : Query → m (Except Error Table)

/-- The state of an interactive pivot tree. -/
structure Session where
  base : Query
  spec : PivotSpec
  openPaths : OpenPaths
  /-- The root was opened, and not closed since. -/
  rootOpen : Bool
  /-- The tree of the layout, unless the layout changed since it was made. -/
  tree : Option PivotTree
  /-- The rows of the last refresh. -/
  view : Option Table
  /-- Something changed since the last refresh. -/
  stale : Bool

namespace Session

def start (base : Query) (spec : PivotSpec) : Except Error Session := do
  let tree ← PivotTree.make base spec
  return ⟨base, spec, .empty, true, some tree, none, true⟩

variable (s : Session)

/-- Opens the node at a path; the empty path is the root. -/
def openPath (path : List PathKey) : Session :=
  { s with
    rootOpen := s.rootOpen || path.isEmpty
    openPaths := s.openPaths.openPath path
    stale := true }

/-- Closes the node at a path and everything below it. -/
def closePath (path : List PathKey) : Session :=
  { s with
    rootOpen := s.rootOpen && !path.isEmpty
    openPaths := s.openPaths.closePath path
    stale := true }

/-- The node at a path is open. The root is open if it was opened, if a node below it is open, or if
it is not shown. -/
def isOpen (path : List PathKey) : Bool :=
  if path = [] then s.rootOpen || !s.openPaths.isEmpty || !s.spec.showRoot
  else s.openPaths.isOpen path

/-- Closes the node at a path if it is open, and opens it otherwise. -/
def togglePath (path : List PathKey) : Session :=
  if s.isOpen path then s.closePath path else s.openPath path

def setOpenPaths (openPaths : OpenPaths) : Session := { s with openPaths, stale := true }

def setSortKey (keys : List SortKey) : Session :=
  { s with spec := { s.spec with sortKey := keys }, tree := none, stale := true }

/-- Other pivot columns; every node below the root is closed. -/
def setPivots (columns : List String) : Session :=
  { s with
    spec := { s.spec with pivotColumns := columns }
    openPaths := .empty
    tree := none
    stale := true }

def setShowRoot (shown : Bool) : Session :=
  { s with spec := { s.spec with showRoot := shown }, tree := none, stale := true }

/-- The tree of the layout. -/
def currentTree : Except Error PivotTree :=
  match s.tree with
  | some tree => .ok tree
  | none => PivotTree.make s.base s.spec

/-- The query for the rows to show, and the session that keeps the tree it was made with. -/
def prepare : Except Error Query × Session :=
  match s.currentTree with
  | .error e => (.error e, s)
  | .ok tree => (tree.sortedTreeQuery s.openPaths s.rootOpen, { s with tree := some tree })

/-- The rows to show have arrived. -/
def receive (view : Table) : Session := { s with view := some view, stale := false }

/-- Asks for the rows to show. -/
def refresh {m : Type → Type} [Monad m] (connection : Connection m) :
    m (Except Error Table × Session) := do
  match s.prepare with
  | (.error e, s) => return (.error e, s)
  | (.ok query, s) =>
    match ← connection.evaluate query with
    | .error e => return (.error e, s)
    | .ok view => return (.ok view, s.receive view)

end Session

end Crosstab
