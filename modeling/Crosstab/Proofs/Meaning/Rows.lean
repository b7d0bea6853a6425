import Crosstab.Proofs.Meaning.Engine
import Crosstab.Query.Plan

/-!
# The rows of a plan

What each operator yields, by the positions of columns. A row is the list of its values in the order
of the schema's columns; new names for columns leave rows as they are.
-/

namespace Crosstab

variable {V : Type} (E : Engine V)

def Operation.apply (op : Operation) (operands : List V) : V :=
  match op, operands with
  | .and, v :: rest => rest.foldl (E.binary .and) v
  | .or, v :: rest => rest.foldl (E.binary .or) v
  | op, [v] => E.unary op v
  | op, [v, w] => E.binary op v w
  | _, _ => E.null

/-- A constant as a value of its declared type: an integer declared as a real is that real. -/
def Scalar.declared (value : Scalar) (type : DataType) : Scalar :=
  match value, type with
  | .int i, .real => .real (Double.ofInt i.toInt)
  | value, _ => value

def Aggregate.apply (func : Aggregate) (values : List V) : V :=
  match func with
  | .sum => E.sum values
  | .avg => E.avg values
  | .count => E.count values
  | .min => E.min values
  | .max => E.max values
  | .uniq =>
    if E.isTrue (E.binary .eq (E.min values) (E.max values)) then E.min values else E.null
  | .null => E.null

namespace Expr

mutual

/-- The value of an expression in a row; `number` is the rank of the row under sort keys. -/
def value (s : Schema) (number : List SortKey → V) (row : List V) : Expr → V
  | column name => E.cell s.ids row name
  | const value type => E.constant (value.declared type)
  | combine op operands => op.apply E (values s number row operands)
  | rowNumber keys => number keys

def values (s : Schema) (number : List SortKey → V) (row : List V) : List Expr → List V
  | [] => []
  | e :: rest => value s number row e :: values s number row rest

end

end Expr

namespace Schema

variable (s : Schema)

def sortValues (keys : List SortKey) (row : List V) : List (V × Bool) :=
  keys.map fun k => (E.cell s.ids row k.column, k.ascending)

def number (rows : List (List V)) (i : Nat) (keys : List SortKey) : V :=
  E.ordinal (E.rank (rows.map (s.sortValues E keys)) i)

/-- A row with one more value, cast where its type is not the declared one. -/
def extendRow (type : DataType) (value : Expr) (rows : List (List V)) (i : Nat) (row : List V) :
    List V :=
  let plain := value.value E s (s.number E rows i) row
  row ++ [if (value.type s).toOption = some type then plain else E.cast type plain]

/-- The groups of rows with the same values in some columns. Without columns all rows are one group,
even if there are none. -/
def groups (columns : List String) (rows : List (List V)) : List (List (List V)) :=
  if columns = [] then [rows]
  else (E.classes (rows.map fun row => columns.map (E.cell s.ids row))).map (pick rows)

/-- The row of a group: what its rows have in common, then the aggregates. -/
def groupRow (columns : List String) (aggregates : List AggregateColumn)
    (members : List (List V)) : List V :=
  columns.map (E.cell s.ids (members.headD [])) ++
    aggregates.map fun a => a.func.apply E (members.map fun row => E.cell s.ids row a.column)

def agree (r : Schema) (keys : List String) (nullSafe : Bool) (left right : List V) : Bool :=
  keys.all fun key =>
    let l := E.cell s.ids left key
    let r := E.cell r.ids right key
    E.isTrue (if nullSafe then E.is l r else E.binary .eq l r)

/-- The row that two rows give when they are joined: the keys, then the other values of each. -/
def joinRow (r : Schema) (keys : List String) (left right : List V) : List V :=
  keys.map (E.cell s.ids left) ++ (s.without keys).map (fun c => E.cell s.ids left c.id) ++
    (r.without keys).map fun c => E.cell r.ids right c.id

/-- The rows that agree with a row of the left side. If none does, a left join pairs the row with
nulls. -/
def partners (r : Schema) (keys : List String) (kind : JoinKind) (nullSafe : Bool)
    (rights : List (List V)) (left : List V) : List (List V) :=
  let found := rights.filter (s.agree E r keys nullSafe left)
  if found = [] ∧ kind = .left then [List.replicate r.columns.length E.null] else found

end Schema

namespace Plan

def rows (db : Tables V) {s : Schema} : Plan s → List (List V)
  | table name s _ =>
    match db name with
    | some t => t.rows.map fun row => s.columns.map fun c => E.cell t.names row c.id
    | none => []
  | project (s := s) source columns _ =>
    (source.rows db).map fun row => columns.map (E.cell s.ids row)
  | filter (s := s) source predicate _ =>
    (source.rows db).filter fun row => E.isTrue (predicate.value E s (fun _ => E.null) row)
  | groupBy (s := s) source columns aggregates _ =>
    (s.groups E columns (source.rows db)).map (s.groupRow E columns aggregates)
  | sort (s := s) source keys _ =>
    pick (source.rows db) (E.arrange ((source.rows db).map (s.sortValues E keys)))
  | extend (s := s) source _ type value _ =>
    (source.rows db).mapIdx (s.extendRow E type value (source.rows db))
  | mapColumns source _ _ | mapColumnsAt source _ _ => source.rows db
  | concat left right _ => left.rows db ++ right.rows db
  | join (s := s) (r := r) left right keys kind nullSafe _ =>
    (left.rows db).flatMap fun row =>
      (s.partners E r keys kind nullSafe (right.rows db) row).map (s.joinRow E r keys row)

end Plan

/-- The rows of a query over a database. -/
def Query.rows (db : Tables V) (q : Query) : List (List V) := q.plan.rows E db

end Crosstab
