import Crosstab.Pivot.OpenPaths
import Crosstab.Query.Plan
import Crosstab.Scalar.Coercion

/-!
# Pivot trees

A pivot tree over a base query: a root row that aggregates all base rows, below it one row for each
group of the first pivot column, and so on, and possibly the base rows below the deepest groups. The
tree holds no rows; it makes the queries that yield them. All its queries have the columns of the
base query, the number of base rows, and bookkeeping columns: the depth of the row, its label,
whether it is the root, and the path of pivot values that leads to it.

* `PivotTree.make` checks a layout against a base query;
* `PivotTree.rootQuery` and `PivotTree.pathQuery` yield the root and the children of a node;
* `PivotTree.rankQuery` ranks the nodes of a depth;
* `PivotTree.treeQuery` yields the rows of all open nodes, `PivotTree.sortedTreeQuery` the same rows
  in the order of their display.
-/

namespace Crosstab

/-- The layout of a pivot tree. -/
structure PivotSpec where
  /-- The columns to group by, from the root down. -/
  pivotColumns : List String
  /-- The column that labels base rows. -/
  leafColumn : Option String
  showRoot : Bool
  showLeafRows : Bool
  /-- The order of siblings, at every depth. -/
  sortKey : List SortKey
  /-- Aggregates other than the default of the column's type. -/
  aggregations : OrderedMap String Aggregate
  deriving DecidableEq

/-- The layout without any groups. -/
def PivotSpec.default : PivotSpec := ⟨[], none, true, false, [], .empty⟩

/-- The number of base rows below a node. -/
def recordColumn : String := "Rec"

/-- The depth of a row: zero for the root, one more than the number of pivots for base rows. -/
def depthColumn : String := "_depth"

/-- The label of a row. -/
def labelColumn : String := "_pivot"

/-- Whether a row is the root. -/
def rootColumn : String := "_isRoot"

/-- The value of a pivot column on the path to a row. -/
def pathColumn (level : Nat) : String := "_path" ++ toString level

/-- The rank of the node at a depth that a row belongs to. -/
def rankColumn (depth : Nat) : String := "_sortVal_" ++ toString depth

/-- Whether a row lies at or below a depth. -/
def levelColumn (depth : Nat) : String := "_inLevel_" ++ toString depth

def beginsWith (s start : String) : Bool := start.toList.isPrefixOf s.toList

/-- A name that the tree may need for itself. -/
def isReserved (id : String) : Bool :=
  [recordColumn, depthColumn, labelColumn, rootColumn].any
      (fun name => decide (SameName id name)) ||
    beginsWith id "_path" || beginsWith id "_sortVal_" || beginsWith id "_inLevel_"

/-- A layout that fits a base query. -/
structure PivotTree where
  /-- The base query with the column of record counts. -/
  base : Query
  spec : PivotSpec
  /-- The columns to group by, from the root down. -/
  pivots : List Column
  /-- The aggregate of every base column. -/
  aggregates : List AggregateColumn

namespace PivotTree

/-- The columns that names mean, none of them twice. -/
def resolvePivots (s : Schema) (found : List Column) : List String → Except BuildError (List Column)
  | [] => .ok []
  | name :: names =>
    match s.find? name with
    | none => .error (.unknownPivot name)
    | some c =>
      if found.any fun d => decide (SameName d.id c.id) then .error (.duplicatePivot name)
      else (resolvePivots s (c :: found) names).map (c :: ·)

/-- The aggregate that a layout asks for, or the default. -/
def chosenAggregate (spec : PivotSpec) (c : Column) : Aggregate :=
  match spec.aggregations.entries.find? fun (name, _) => decide (SameName name c.id) with
  | some (_, func) => func
  | none => Aggregate.default c.type

/-- The aggregate of a base column. Where the column also shows values of base rows, the aggregate
must have a type that fits them. -/
def aggregateOf (spec : PivotSpec) (pivots : List Column) (c : Column) :
    Except BuildError AggregateColumn := do
  let func := chosenAggregate spec c
  let output ← func.outputType c.type
  let mixed := spec.showLeafRows || pivots.any (·.id == c.id)
  if mixed && (output.widen c.type).isNone then throw (.mixedValues func c.id output c.type)
  return ⟨func, c.id⟩

/-- The parts of a layout that do not fit the columns of a base query. -/
def checkNames (s : Schema) (spec : PivotSpec) : Except BuildError Unit :=
  match spec.sortKey.find? (fun k => !s.has k.column) with
  | some k => .error (.unknownSortKey k.column)
  | none =>
    match spec.aggregations.entries.find? (fun (name, _) => !s.has name) with
    | some (name, _) => .error (.unknownAggregation name)
    | none => .ok ()

/-- The column that labels base rows exists. -/
def checkLeaf (s : Schema) (spec : PivotSpec) : Except BuildError Unit :=
  match spec.leafColumn with
  | none => .ok ()
  | some name => if s.has name then .ok () else .error (.unknownLeaf name)

/-- No column of the base query has a reserved name. -/
def checkReserved (s : Schema) : Except BuildError Unit :=
  match s.ids.find? isReserved with
  | some id => .error (.reservedColumn id)
  | none => .ok ()

/-- The tree of a layout over a base query. -/
def make (base : Query) (spec : PivotSpec) : Except Error PivotTree := do
  (checkReserved base.schema).mapError .build
  let pivots ← (resolvePivots base.schema [] spec.pivotColumns).mapError .build
  (checkLeaf base.schema spec).mapError .build
  let base ← base.extend recordColumn .integer (.lit (.int 1))
  (checkNames base.schema spec).mapError .build
  let aggregates ← (base.schema.columns.mapM (aggregateOf spec pivots)).mapError .build
  return ⟨base, spec, pivots, aggregates⟩

variable (t : PivotTree)

def depth : Nat := t.pivots.length

def pivotIds : List String := t.pivots.map (·.id)

/-- The columns of the rows of the tree. -/
def outputColumns : List String :=
  t.base.schema.ids ++ [depthColumn, labelColumn, rootColumn] ++ (List.range t.depth).map pathColumn

/-- The rows of a query grouped by the first pivot columns, everything else aggregated. -/
def groupRows (q : Query) (levels : Nat) : Except BuildError Query :=
  let groups := t.pivotIds.take levels
  q.groupBy groups (t.aggregates.filter fun a => !groups.contains a.column)

/-- The column of one level of the path, null from a level on. -/
def addPathColumn (known : Nat) (q : Query) : Nat × Column → Except Error Query
  | (level, pivot) =>
    q.extend (pathColumn level) pivot.type
      (if level < known then .column pivot.id else .null pivot.type)

def levels : List (Nat × Column) := (List.range t.depth).zip t.pivots

/-- The rows of a query with the bookkeeping columns, in the common order of columns. -/
def finish (q : Query) (depth : Nat) (label : Expr) (isRoot : Bool) (known : Nat) :
    Except Error Query := do
  let q ← q.extend depthColumn .integer (.lit (.int (Int64.ofNat depth)))
  let q ← q.extend labelColumn .text label
  let q ← q.extend rootColumn .boolean (.lit (.bool isRoot))
  let q ← t.levels.foldlM (addPathColumn known) q
  (q.project t.outputColumns).mapError .build

/-- The one row that aggregates all base rows. -/
def rootQuery : Except Error Query := do
  t.finish (← (t.groupRows t.base 0).mapError .build) 0 (.null .text) true 0

/-- The condition that a pivot column has a value. A value that cannot be of the column's type is
none that the column has. -/
def pathCondition (pivot : Column) (value : Scalar) : Except TypeError Expr :=
  match value.coerce pivot.type with
  | .ok .null => .ok (.combine .isNull [.column pivot.id])
  | .ok v => (Expr.typedLit v pivot.type).map fun constant =>
      .combine .eq [.column pivot.id, constant]
  | .error _ => .ok (.lit (.bool false))

/-- The base rows below the node at a path. -/
def filterPath (path : List Scalar) : Except Error Query :=
  if path = [] then .ok t.base
  else do
    let conditions ← ((t.pivots.zip path).mapM fun (pivot, value) =>
      pathCondition pivot value).mapError .type
    t.base.filter (.combine .and conditions)

def leafLabel : Expr :=
  match t.spec.leafColumn with
  | some name => .column name
  | none => .null .text

/-- The children of the node at a path: the groups of the next level, or the base rows below the
deepest one. -/
def pathQuery (path : List Scalar) : Except Error Query :=
  if t.depth < path.length then .error (.build (.pathTooLong path.length t.depth))
  else do
    let rows ← t.filterPath path
    match t.pivots[path.length]? with
    | some pivot =>
      let groups ← (t.groupRows rows (path.length + 1)).mapError .build
      t.finish groups (path.length + 1) (.column pivot.id) false (path.length + 1)
    | none =>
      if t.spec.showLeafRows then t.finish rows (t.depth + 1) t.leafLabel false t.depth
      else
        let groups ← (t.groupRows rows t.depth).mapError .build
        let noRows ← groups.filter (.lit (.bool false))
        t.finish noRows (t.depth + 1) (.null .text) false t.depth

/-- The nodes of a depth with the path to each and its rank under the sort key; equal nodes are
ranked by their path. -/
def rankQuery (depth : Nat) : Except Error Query :=
  if depth = 0 ∨ t.depth < depth then .error (.build (.rankDepth depth t.depth))
  else do
    let groups ← (t.groupRows t.base depth).mapError .build
    let keys := t.spec.sortKey ++ (t.pivotIds.take depth).map SortKey.asc
    let ranked ← groups.extend (rankColumn depth) .integer (.rowNumber keys)
    let q ← (t.levels.take depth).foldlM (addPathColumn depth) ranked
    (q.project ((List.range depth).map pathColumn ++ [rankColumn depth])).mapError .build

/-- Neighbours concatenated; a last one without a neighbour stays. -/
def concatPairs : List Query → Except BuildError (List Query)
  | a :: b :: rest => do
    let first ← a.concat b
    let others ← concatPairs rest
    return first :: others
  | parts => .ok parts

theorem length_of_concatPairs {parts merged : List Query} (h : concatPairs parts = .ok merged) :
    merged.length = (parts.length + 1) / 2 := by
  induction parts using concatPairs.induct generalizing merged with
  | case1 a b rest ih =>
    unfold concatPairs at h
    cases hc : a.concat b with
    | error e => rw [hc] at h; cases h
    | ok first =>
      cases hr : concatPairs rest with
      | error e => rw [hc, hr] at h; cases h
      | ok others =>
        rw [hc, hr] at h
        cases h
        have := ih hr
        simp only [List.length_cons]
        omega
  | case2 parts hp =>
    have : merged = parts := by
      unfold concatPairs at h
      split at h
      · next a b rest => exact absurd rfl (hp a b rest)
      · cases h; rfl
    subst this
    match merged, hp with
    | [], _ => rfl
    | [_], _ => simp
    | a :: b :: rest, hp => exact absurd rfl (hp a b rest)

/-- All parts in one query, as a balanced tree of concatenations. -/
def concatAll (parts : List Query) : Except BuildError Query :=
  match parts with
  | [] => .error .nothingToShow
  | [q] => .ok q
  | a :: b :: rest =>
    match _h : concatPairs (a :: b :: rest) with
    | .ok merged => concatAll merged
    | .error e => .error e
termination_by parts.length
decreasing_by
  have := length_of_concatPairs _h
  simp only [List.length_cons] at this ⊢
  omega

/-- The paths whose children the tree shows: the root's if it is expanded, and those of all open
nodes. -/
def expandedPaths (openPaths : OpenPaths) (expandRoot : Bool) : List (List PathKey) :=
  if expandRoot || !openPaths.isEmpty || !t.spec.showRoot then openPaths.shown t.depth else []

/-- The rows of the tree in no particular order. -/
def treeQuery (openPaths : OpenPaths) (expandRoot : Bool) : Except Error Query := do
  let root ← if t.spec.showRoot then t.rootQuery.map (fun q => [q]) else .ok []
  let parts ← (t.expandedPaths openPaths expandRoot).mapM fun path =>
    t.pathQuery (path.map PathKey.toScalar)
  (concatAll (root ++ parts)).mapError .build

/-- The rows of a query with the rank of the node at a depth that each belongs to; a row above that
depth has none. -/
def addRank (q : Query) (depth : Nat) : Except Error Query := do
  let level := levelColumn depth
  let below : Expr := .combine .ge [.column depthColumn, .lit (.int (Int64.ofNat depth))]
  let q ← q.extend level .boolean below
  let ranks ← (← t.rankQuery depth).extend level .boolean (.lit (.bool true))
  (q.join ranks ((List.range depth).map pathColumn ++ [level]) .left true).mapError .build

def depths : List Nat := (List.range t.depth).map (· + 1)

/-- The rows of the tree as they are displayed: siblings by the sort key, and every node right
before its children. A null rank comes first, so a node comes before what is below it. -/
def sortedTreeQuery (openPaths : OpenPaths) (expandRoot : Bool) : Except Error Query := do
  let q ← t.depths.foldlM t.addRank (← t.treeQuery openPaths expandRoot)
  let q ← (q.project (t.outputColumns ++ t.depths.map rankColumn)).mapError .build
  let keys := t.depths.map (fun d => SortKey.asc (rankColumn d)) ++ [SortKey.asc depthColumn] ++
    t.spec.sortKey ++ [SortKey.asc labelColumn]
  (q.sort keys).mapError .build

end PivotTree

end Crosstab
