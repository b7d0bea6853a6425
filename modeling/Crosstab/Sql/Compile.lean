import Crosstab.Query.Plan
import Crosstab.Sql.Printer

/-!
# Queries as SQL

Each node of a plan is one SELECT (a concatenation is one UNION ALL) over the nodes below it. A
table is drawn from directly, any other node as a subquery. Every result column is listed, so the
columns of the result are those of the plan's schema, in order.

Aliases are `t0`, `t1`, and so on: a child takes the next number, and the children below it the
numbers after that; `Plan.aliasCount` is how many a plan takes.
-/

namespace Crosstab

namespace Sql

/-- A name that SQL can hold between quotes. -/
def identifier (name : String) : Except CompileError String :=
  if name = "" then .error .emptyIdentifier
  else if '\x00' ∈ name.toList then .error (.nulInIdentifier name)
  else .ok name

/-- The id of the column that a name means. -/
def canonical (s : Schema) (name : String) : Except CompileError String :=
  match s.find? name with
  | none => .error (.unknownColumn name)
  | some c => identifier c.id

def columnItem (c : Column) : Except CompileError SelectItem := do
  return .plain (.named (← identifier c.id))

def columnItems (s : Schema) : Except CompileError (List SelectItem) := s.columns.mapM columnItem

def orderKey (s : Schema) (key : SortKey) : Except CompileError (Expr × Bool) := do
  return (.named (← canonical s key.column), key.ascending)

/-- The aggregate of a column of a type. The common value of a group is its least value if that is
also its greatest. -/
def aggregateExpr (func : Aggregate) (column : String) (input : DataType) : Expr :=
  let applied (name : String) : Expr := .call name [.named column]
  match func with
  | .sum => applied "sum"
  | .avg => applied "avg"
  | .count => applied "count"
  | .min => applied "min"
  | .max => applied "max"
  | .uniq =>
    .case [(.binary (applied "min") .eq (applied "max"), applied "min")] (some (.literal .null))
  | .null => .cast (.literal .null) input

/-- A constant declared with a type; an integer declared as a real is that real. -/
def constant (value : Scalar) (type : DataType) : Except CompileError Literal :=
  match value with
  | .null => .ok .null
  | .bool b => .ok (.boolean b)
  | .int i => .ok (if type = .real then .real (Double.ofInt i.toInt) else .integer i)
  | .real v => if v.isFinite then .ok (.real v) else .error (.notFinite v)
  | .text s => if '\x00' ∈ s.toList then .error .nulInText else .ok (.text s)

/-- The SQL operation of an operation on two operands. -/
def binaryOp? : Operation → Option BinaryOp
  | .eq => some .eq
  | .ne => some .ne
  | .lt => some .lt
  | .le => some .le
  | .gt => some .gt
  | .ge => some .ge
  | .add => some .add
  | .sub => some .sub
  | .mul => some .mul
  | .div => some .div
  | .and | .or | .not | .isNull | .isNotNull => none

/-- Operands joined from the left. -/
def joined (op : BinaryOp) : List Expr → Option Expr
  | [] => none
  | e :: rest => some (rest.foldl (fun left right => .binary left op right) e)

/-- All operands joined by one operation. -/
def joinedOperands (op : Operation) (joiner : BinaryOp) (operands : List Expr) :
    Except CompileError Expr :=
  match joined joiner operands with
  | some e => .ok e
  | none => .error (.noOperands op)

/-- An operation on the last operand. -/
def lastOperand (op : Operation) (node : Expr → Expr) (operands : List Expr) :
    Except CompileError Expr :=
  match operands.getLast? with
  | some e => .ok (node e)
  | none => .error (.noOperand op)

/-- An operation on its operands. -/
def combined (op : Operation) (operands : List Expr) : Except CompileError Expr :=
  match op, binaryOp? op, operands with
  | .and, _, operands => joinedOperands .and .and operands
  | .or, _, operands => joinedOperands .or .or operands
  | .not, _, operands => lastOperand .not .not operands
  | .isNull, _, operands => lastOperand .isNull (.isNull · false) operands
  | .isNotNull, _, operands => lastOperand .isNotNull (.isNull · true) operands
  | _, some binary, [left, right] => .ok (.binary left binary right)
  | op, _, operands => .error (.operandCount op operands.length)

def aliasName (number : Nat) : String := "t" ++ toString number

/-- A renamed column: the alias is left out when the id stays. -/
def renamedItem (old new : Column) : Except CompileError SelectItem := do
  let asName ← if old.id = new.id then pure none else some <$> identifier new.id
  return ⟨.named (← identifier old.id), asName⟩

/-- The equality of one key column on both sides of a join. -/
def keyCondition (s r : Schema) (left right : String) (op : BinaryOp) (key : String) :
    Except CompileError Expr := do
  let l ← canonical s key
  let r ← canonical r key
  return .binary (.qualified left l) op (.qualified right r)

/-- A result column of a join, from the left side if that has it. -/
def joinItem (s : Schema) (left right : String) (c : Column) : Except CompileError SelectItem := do
  return .plain (.qualified (if s.has c.id then left else right) (← identifier c.id))

/-- The condition that all keys agree. -/
def joinCondition (s r : Schema) (left right : String) (nullSafe : Bool) (keys : List String) :
    Except CompileError Expr := do
  let conditions ← keys.mapM (keyCondition s r left right (if nullSafe then .is else .eq))
  match joined .and conditions with
  | some e => return e
  | none => throw .joinWithoutKeys

def groupColumns (s : Schema) (columns : List String) : Except CompileError (List Expr) :=
  columns.mapM fun name => return .named (← canonical s name)

/-- The result column of an aggregate, under the id of its input. -/
def aggregateItem (s : Schema) (a : AggregateColumn) : Except CompileError SelectItem :=
  match s.find? a.column with
  | none => .error (.unknownColumn a.column)
  | some c => do return ⟨aggregateExpr a.func (← identifier c.id) c.type, some c.id⟩

end Sql

open Sql (SelectItem Statement TableRef)

namespace Expr

mutual

def sql (s : Schema) : Expr → Except CompileError Sql.Expr
  | column name => (Sql.canonical s name).map .named
  | const value type => (Sql.constant value type).map .literal
  | combine op operands => do Sql.combined op (← sqls s operands)
  | rowNumber keys => do return .window "row_number" [] (← keys.mapM (Sql.orderKey s))

def sqls (s : Schema) : List Expr → Except CompileError (List Sql.Expr)
  | [] => .ok []
  | e :: rest => do
    let first ← sql s e
    let others ← sqls s rest
    return first :: others

end

end Expr

namespace Plan

/-- How many aliases the statement of a plan takes. -/
def aliasCount {s : Schema} : Plan s → Nat
  | table .. => 0
  | project source .. | filter source .. | groupBy source .. | sort source .. | extend source ..
  | mapColumns source .. | mapColumnsAt source .. => source.aliasCount + 1
  | concat left right _ | join left right .. => left.aliasCount + right.aliasCount + 2

/-- What a SELECT draws the rows of a child from: the table itself, or the child's statement. -/
def tableRef {s : Schema} (source : Plan s) (number : Nat)
    (statement : Except CompileError Statement) : Except CompileError TableRef :=
  match source with
  | table name _ _ => do return .table (← Sql.identifier name) (some (Sql.aliasName number))
  | _ => do return .subquery (← statement) (Sql.aliasName number)

/-- The expression of a derived column, cast where its type is not the declared one. -/
def derivedExpr (s : Schema) (type : DataType) (value : Expr) (compiled : Sql.Expr) : Sql.Expr :=
  if (value.type s).toOption = some type then compiled else .cast compiled type

/-- The statement of a plan; `next` is the number of its first alias. -/
def statement {s : Schema} (next : Nat) : Plan s → Except CompileError Statement
  | table name s _ => do
    let items ← Sql.columnItems s
    return .plain items (.table (← Sql.identifier name) none)
  | project (t := t) source _ _ => do
    let items ← Sql.columnItems t
    return .plain items (← source.tableRef next (source.statement (next + 1)))
  | filter (s := s) source predicate _ => do
    let items ← Sql.columnItems s
    let child ← source.tableRef next (source.statement (next + 1))
    return .select items (.item child) (some (← predicate.sql s)) [] []
  | groupBy (s := s) source columns aggregates _ => do
    let groups ← Sql.groupColumns s columns
    let rest ← aggregates.mapM (Sql.aggregateItem s)
    let child ← source.tableRef next (source.statement (next + 1))
    return .select (groups.map .plain ++ rest) (.item child) none groups []
  | sort (s := s) source keys _ => do
    let items ← Sql.columnItems s
    let child ← source.tableRef next (source.statement (next + 1))
    return .select items (.item child) none [] (← keys.mapM (Sql.orderKey s))
  | extend (s := s) source column type value _ => do
    let items ← Sql.columnItems s
    let compiled ← value.sql s
    let asName ← Sql.identifier column
    let child ← source.tableRef next (source.statement (next + 1))
    return .plain (items ++ [⟨derivedExpr s type value compiled, some asName⟩]) child
  | mapColumns (s := s) (t := t) source _ _ | mapColumnsAt (s := s) (t := t) source _ _ => do
    let items ← (s.columns.zip t.columns).mapM fun (old, new) => Sql.renamedItem old new
    return .plain items (← source.tableRef next (source.statement (next + 1)))
  | concat (s := s) (r := r) left right _ => do
    let leftItems ← Sql.columnItems s
    let leftChild ← left.tableRef next (left.statement (next + 1))
    let next := next + 1 + left.aliasCount
    let rightItems ← Sql.columnItems r
    let rightChild ← right.tableRef next (right.statement (next + 1))
    return .union true (.plain leftItems leftChild) (.plain rightItems rightChild)
  | join (s := s) (r := r) (t := t) left right keys kind nullSafe _ => do
    let leftChild ← left.tableRef next (left.statement (next + 1))
    let next := next + 1 + left.aliasCount
    let rightChild ← right.tableRef next (right.statement (next + 1))
    let items ← t.columns.mapM (Sql.joinItem s leftChild.owner rightChild.owner)
    let condition ← Sql.joinCondition s r leftChild.owner rightChild.owner nullSafe keys
    return .select items (.join (.item leftChild) kind rightChild condition) none [] []

end Plan

namespace Query

def statement (q : Query) : Except CompileError Statement := q.plan.statement 0

/-- The statement for the number of rows of a query. -/
def countStatement (q : Query) : Except CompileError Statement := do
  let rows ← q.statement
  return .plain [⟨.call "count" [.star], some "rowCount"⟩]
    (.subquery rows (Sql.aliasName q.plan.aliasCount))

def sql (q : Query) : Except CompileError String := q.statement.map (·.render)

def countSql (q : Query) : Except CompileError String := q.countStatement.map (·.render)

end Query

end Crosstab
