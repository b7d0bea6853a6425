import Crosstab.Expr

/-!
# Schema rules

What each operator of a query needs of the schemas below it, and the schema it yields. A rule either
gives the schema or names the first thing that is wrong.
-/

namespace Crosstab

structure AggregateColumn where
  func : Aggregate
  column : String
  deriving DecidableEq

/-- A new id, a new display name, or both. -/
structure Renaming where
  id : Option String
  displayName : Option String
  deriving DecidableEq

def Renaming.apply (r : Renaming) (c : Column) : Column :=
  { c with id := r.id.getD c.id, displayName := r.displayName.getD c.displayName }

namespace Aggregate

/-- The aggregate of a column for which none is asked: sums for numbers, common values for the
rest. -/
def default (type : DataType) : Aggregate := if type.isNumeric then sum else uniq

/-- The type of an aggregate over a column of a type. -/
def outputType (func : Aggregate) (input : DataType) : Except BuildError DataType :=
  match func with
  | sum => if input.isNumeric then .ok input else .error (.cannotAggregate sum input)
  | avg => if input.isNumeric then .ok .real else .error (.cannotAggregate avg input)
  | count => .ok .integer
  | min | max | uniq | null => .ok input

end Aggregate

namespace Schema

def lookup (s : Schema) (context : Operator) (name : String) : Except BuildError Column :=
  match s.find? name with
  | some c => .ok c
  | none => .error (.unknownColumn context name)

def build (context : Operator) (columns : List Column) : Except BuildError Schema :=
  (ofColumns columns).mapError (.columns context)

/-- The named columns, in the order of the names. -/
def project (s : Schema) (names : List String) : Except BuildError Schema :=
  if names = [] then .error .emptyProjection
  else do build .project (← names.mapM (s.lookup .project))

/-- A predicate is a truth value without the rank of the row. -/
def checkPredicate (s : Schema) (predicate : Expr) : Except Error Unit :=
  if predicate.hasRowNumber then .error (.build .rowNumberInPredicate)
  else match predicate.type s with
    | .error e => .error e
    | .ok t => if t = .boolean then .ok () else .error (.type (.predicate t))

/-- The column that an aggregate yields: it keeps the names of its input. -/
def aggregated (s : Schema) (a : AggregateColumn) : Except BuildError Column := do
  let input ← s.lookup .groupBy a.column
  let type ← a.func.outputType input.type
  return { input with type }

/-- The group columns, then the aggregates. -/
def groupBy (s : Schema) (names : List String) (aggregates : List AggregateColumn) :
    Except BuildError Schema :=
  if names = [] ∧ aggregates = [] then .error .emptyGrouping
  else do
    let groups ← names.mapM (s.lookup .groupBy)
    let rest ← aggregates.mapM s.aggregated
    build .groupBy (groups ++ rest)

/-- There is a key, and every key is a column. -/
def checkSort (s : Schema) (keys : List SortKey) : Except BuildError Unit :=
  if keys = [] then .error .emptySort
  else do
    let _ ← keys.mapM fun k => s.lookup .sort k.column
    return ()

/-- One more column, whose type the value can be stored in. -/
def extend (s : Schema) (column : String) (type : DataType) (value : Expr) : Except Error Schema :=
  if s.has column then .error (.build (.columnExists column))
  else match value.type s with
    | .error e => .error e
    | .ok actual =>
      if actual.castsTo type then
        (build .extend (s.columns ++ [Column.named column type])).mapError .build
      else .error (.type (.cannotStore actual type column))

/-- New names for columns found by name. The entries are applied in the order of their keys. -/
def mapColumns (s : Schema) (mapping : OrderedMap String Renaming) : Except BuildError Schema := do
  let columns ← mapping.entries.foldlM (fun columns (name, new) =>
    match s.index? name with
    | some i => .ok (columns.modify i new.apply)
    | none => .error (.unknownColumn .mapColumns name)) s.columns
  build .mapColumns columns

def mapColumnsAt (s : Schema) (mapping : OrderedMap Nat Renaming) : Except BuildError Schema := do
  let columns ← mapping.entries.foldlM (fun columns (index, new) =>
    if index < s.columns.length then .ok (columns.modify index new.apply)
    else .error (.indexOutOfRange index)) s.columns
  build .mapColumnsByIndex columns

/-- The column that two columns of one place give when rows are appended. -/
def concatColumn (left right : Column) : Except BuildError Column :=
  if SameName left.id right.id then
    match left.type.widen right.type with
    | some type => .ok { left with type }
    | none => .error (.columnTypes left.id left.type right.type)
  else .error (.columnIds left.id right.id)

/-- The rows of two queries with the same columns, one after the other. -/
def concat (s r : Schema) : Except BuildError Schema :=
  if s.columns.length = r.columns.length then do
    let columns ← (s.columns.zip r.columns).mapM fun (left, right) => concatColumn left right
    build .concat columns
  else .error (.columnCounts s.columns.length r.columns.length)

/-- A key is a column on both sides, of types that can be compared. -/
def keyColumn (s r : Schema) (key : String) : Except BuildError Column := do
  let left ← s.lookup .join key
  let right ← r.lookup .join key
  match left.type.widen right.type with
  | some _ => return left
  | none => throw (.keyTypes key left.type right.type)

/-- The columns that none of the names means. -/
def without (s : Schema) (names : List String) : List Column :=
  s.columns.filter fun c => !names.any fun name => decide (SameName name c.id)

/-- The keys, then the other columns of the left side, then those of the right side. -/
def join (s r : Schema) (keys : List String) : Except BuildError Schema :=
  if keys = [] then .error .noKeys
  else do
    let columns ← keys.mapM (s.keyColumn r)
    build .join (columns ++ s.without keys ++ r.without keys)

end Schema

end Crosstab
