import Crosstab.Schema

/-!
# Scalar expressions

Expressions over the columns of one row, for predicates and derived columns. They are plain data and
get their type from the schema they are used with.
-/

namespace Crosstab

/-- A column to sort by, and the direction. -/
structure SortKey where
  column : String
  ascending : Bool
  deriving DecidableEq

def SortKey.asc (column : String) : SortKey := ⟨column, true⟩

/-- An expression over the columns of a row. -/
inductive Expr
  | column (name : String)
  /-- A constant and the type it is declared with. -/
  | const (value : Scalar) (type : DataType)
  | combine (op : Operation) (operands : List Expr)
  /-- The rank of the row under the keys, from one on. -/
  | rowNumber (keys : List SortKey)

namespace Expr

/-- A constant of its own type; a null counts as text. -/
def lit (value : Scalar) : Expr := const value (value.type?.getD .text)

def null (type : DataType) : Expr := const .null type

/-- A constant fits its declared type if it is null, has that type, or is an integer declared as a
real. -/
def checkConstant (value : Scalar) (type : DataType) : Except TypeError Unit :=
  match value.type? with
  | none => .ok ()
  | some actual =>
    if actual = type ∨ (actual = .integer ∧ type = .real) then .ok ()
    else .error (.constant value actual type)

/-- A constant that fits the type it is declared with. -/
def typedLit (value : Scalar) (type : DataType) : Except TypeError Expr :=
  (checkConstant value type).map fun _ => const value type

/-- All operands are truth values. -/
def logicType (op : Operation) (types : List DataType) : Except TypeError DataType :=
  match types.find? (· ≠ .boolean) with
  | some t => .error (.notBooleanOperand op t)
  | none => .ok .boolean

/-- The two operands have a common type. -/
def comparisonType (left right : DataType) : Except TypeError DataType :=
  match left.widen right with
  | some _ => .ok .boolean
  | none => .error (.incomparable left right)

/-- The two operands are numbers. -/
def arithmeticType (op : Operation) (left right : DataType) : Except TypeError DataType :=
  if left.isNumeric && right.isNumeric then .ok ((left.widen right).getD .real)
  else .error (.notNumeric op left right)

/-- The type of an operation on operands of the given types. -/
def combinedType (op : Operation) (types : List DataType) : Except TypeError DataType :=
  if op.takes types.length then
    match op, types with
    | .and, types | .or, types | .not, types => logicType op types
    | .isNull, _ | .isNotNull, _ => .ok .boolean
    | op, [left, right] =>
      if op.isComparison then comparisonType left right else arithmeticType op left right
    | op, types => .error (.operandCount op types.length)
  else .error (.operandCount op types.length)

/-- The keys of a rank are columns, and there is at least one. -/
def checkRowNumber (s : Schema) (keys : List SortKey) : Except BuildError Unit :=
  if keys = [] then .error .rowNumberWithoutKey
  else match keys.find? (fun k => !s.has k.column) with
    | some k => .error (.unknownRowNumberKey k.column)
    | none => .ok ()

mutual

/-- The type of an expression over rows of a schema. Operands are checked from left to right, before
the operation itself. -/
def type (s : Schema) : Expr → Except Error DataType
  | column name =>
    match s.type? name with
    | some t => .ok t
    | none => .error (.build (.unknownOperand name))
  | const value t =>
    match checkConstant value t with
    | .ok () => .ok t
    | .error e => .error (.type e)
  | combine op operands =>
    match types s operands with
    | .ok ts => (combinedType op ts).mapError .type
    | .error e => .error e
  | rowNumber keys =>
    match checkRowNumber s keys with
    | .ok () => .ok .integer
    | .error e => .error (.build e)

/-- The types of a list of expressions; the first error counts. -/
def types (s : Schema) : List Expr → Except Error (List DataType)
  | [] => .ok []
  | e :: rest =>
    match type s e with
    | .error e => .error e
    | .ok t => (types s rest).map (t :: ·)

end

mutual

/-- The rank of the row occurs in the expression. -/
def hasRowNumber : Expr → Bool
  | rowNumber _ => true
  | combine _ operands => anyRowNumber operands
  | column _ | const _ _ => false

def anyRowNumber : List Expr → Bool
  | [] => false
  | e :: rest => hasRowNumber e || anyRowNumber rest

end

mutual

/-- Equality of expressions: constants are compared as values, all else as written. -/
def equals : Expr → Expr → Bool
  | column a, column b => a == b
  | const v t, const w u => v.equals w && t == u
  | combine p as, combine q bs => p == q && equalsList as bs
  | rowNumber ks, rowNumber ls => ks == ls
  | _, _ => false

def equalsList : List Expr → List Expr → Bool
  | [], [] => true
  | a :: as, b :: bs => equals a b && equalsList as bs
  | _, _ => false

end

end Expr

end Crosstab
