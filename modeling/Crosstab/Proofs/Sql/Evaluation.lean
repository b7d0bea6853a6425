import Crosstab.Proofs.Meaning.Engine
import Crosstab.Proofs.Sql.Scope

/-!
# What statements mean

The rows of a SELECT by the rules of SQL, over the tables of a database. Names are resolved in what
the SELECT draws from; a name that does not mean exactly one column has no value, and a statement
that needs it has no rows at all.
-/

namespace Crosstab

/-- The elements for which a condition is true, if the condition has a value for each. -/
def keepTrue {V α : Type} (E : Engine V) (condition : α → Option V) : List α → Option (List α)
  | [] => some []
  | a :: rest => do
    let v ← condition a
    let kept ← keepTrue E condition rest
    return if E.isTrue v then a :: kept else kept

namespace Sql

/-- The column at one position of what a SELECT draws from. -/
def Scope.columns (scope : Scope) : List (String × String) :=
  scope.flatMap fun (owner, names) => names.map fun name => (owner, name)

/-- A reference may mean a column: the names are the same, and so are the owners if one is given. -/
def mayMean (owner : Option String) (name : String) (column : String × String) : Bool :=
  (owner.all fun o => decide (SameName column.1 o)) && decide (SameName column.2 name)

/-- The position of the only column that a reference may mean. -/
def Scope.position? (scope : Scope) (owner : Option String) (name : String) : Option Nat :=
  if scope.columns.countP (mayMean owner name) = 1 then
    scope.columns.findIdx? (mayMean owner name)
  else none

/-- The value of a reference in a row. -/
def Scope.value? {V : Type} (scope : Scope) (owner : Option String) (name : String)
    (row : List V) : Option V :=
  (scope.position? owner name).bind fun i => row[i]?

def Literal.scalar : Literal → Scalar
  | integer i => .int i
  | real v => .real v
  | text s => .text s
  | boolean b => .bool b
  | null => .null

section
variable {V : Type} (E : Engine V)

def BinaryOp.apply : BinaryOp → V → V → V
  | add => E.binary .add
  | sub => E.binary .sub
  | mul => E.binary .mul
  | div => E.binary .div
  | eq => E.binary .eq
  | ne => E.binary .ne
  | lt => E.binary .lt
  | le => E.binary .le
  | gt => E.binary .gt
  | ge => E.binary .ge
  | is => E.is
  | and => E.binary .and
  | or => E.binary .or

/-- The aggregate of a name over the values of a group. -/
def aggregate? : String → Option (List V → V)
  | "sum" => some E.sum
  | "avg" => some E.avg
  | "count" => some E.count
  | "min" => some E.min
  | "max" => some E.max
  | _ => none

end

/-- Where an expression of a SELECT is evaluated. -/
structure Context (V : Type) where
  /-- The row, or the first row of the group. -/
  row : List V
  /-- The rows of the group, in a SELECT that groups its rows. -/
  group : Option (List (List V))
  /-- All rows and the position of this one, in a SELECT that does not. -/
  frame : Option (List (List V) × Nat)

def Context.ofRow {V : Type} (row : List V) : Context V := ⟨row, none, none⟩

namespace Expr

variable {V : Type} (E : Engine V) (scope : Scope)

mutual

/-- The value of an expression. -/
def meaning : Expr → Context V → Option V
  | literal value, _ => some (E.constant value.scalar)
  | column owner name, c => scope.value? owner name c.row
  | binary left op right, c => do
    return op.apply E (← meaning left c) (← meaning right c)
  | not operand, c => return E.unary .not (← meaning operand c)
  | isNull operand negated, c =>
    return E.unary (if negated then .isNotNull else .isNull) (← meaning operand c)
  | cast operand type, c => return E.cast type (← meaning operand c)
  | case branches otherwise, c => branchMeaning branches (elseMeaning otherwise c) c
  | call function [star], c => do
    let rows ← c.group
    if function = "count" then some (E.ordinal rows.length) else none
  | call function args, c => do
    let rows ← c.group
    let apply ← aggregate? E function
    let values ← rows.mapM fun row => meanings args (.ofRow row)
    if args.length = 1 then some (apply values.flatten) else none
  | window function args keys, c => do
    let (rows, position) ← c.frame
    let order ← rows.mapM fun row => keyMeanings keys (.ofRow row)
    if function = "row_number" ∧ args.isEmpty then some (E.ordinal (E.rank order position))
    else none
  | star, _ => none

def meanings : List Expr → Context V → Option (List V)
  | [], _ => some []
  | e :: rest, c => do return (← meaning e c) :: (← meanings rest c)

def keyMeanings : List (Expr × Bool) → Context V → Option (List (V × Bool))
  | [], _ => some []
  | (e, ascending) :: rest, c => do return (← meaning e c, ascending) :: (← keyMeanings rest c)

def branchMeaning : List (Expr × Expr) → Option V → Context V → Option V
  | [], otherwise, _ => otherwise
  | (condition, value) :: rest, otherwise, c => do
    if E.isTrue (← meaning condition c) then meaning value c else branchMeaning rest otherwise c

def elseMeaning : Option Expr → Context V → Option V
  | none, _ => some E.null
  | some e, c => meaning e c

end

end Expr

instance : DecidablePred Expr.IsAggregate
  | .call _ _ => .isTrue trivial
  | .literal _ | .column _ _ | .binary _ _ _ | .not _ | .window _ _ _ | .cast _ _ | .case _ _
  | .isNull _ _ | .star => .isFalse id

/-- The select list has an aggregate. -/
def hasAggregate (columns : List SelectItem) : Bool :=
  columns.any fun item => item.expr.parts.any fun e => decide e.IsAggregate

section
variable {V : Type} (E : Engine V) (scope : Scope)

/-- Where the select list is evaluated: once for each group, or once for each row. -/
def contexts (columns : List SelectItem) (groups : List Expr) (rows : List (List V)) :
    Option (List (Context V)) :=
  match groups with
  | [] =>
    if hasAggregate columns then some [⟨rows.headD [], some rows, none⟩]
    else some (rows.mapIdx fun i row => ⟨row, none, some (rows, i)⟩)
  | groups => do
    let keys ← rows.mapM fun row => Expr.meanings E scope groups (.ofRow row)
    return (E.classes keys).map fun positions =>
      ⟨(pick rows positions).headD [], some (pick rows positions), none⟩

/-- The rows for which the condition is true; all if there is none. -/
def whereTrue (condition : Option Expr) (rows : List (List V)) : Option (List (List V)) :=
  match condition with
  | none => some rows
  | some e => keepTrue E (fun row => e.meaning E scope (.ofRow row)) rows

def ordered (keys : List (Expr × Bool)) (contexts : List (Context V)) :
    Option (List (Context V)) :=
  match keys with
  | [] => some contexts
  | keys => do
    let order ← contexts.mapM (Expr.keyMeanings E scope keys)
    return pick contexts (E.arrange order)

/-- The rows of a SELECT over the rows that it draws from. -/
def selectRows (columns : List SelectItem) (condition : Option Expr) (groups : List Expr)
    (keys : List (Expr × Bool)) (rows : List (List V)) : Option (List (List V)) := do
  let rows ← whereTrue E scope condition rows
  let contexts ← contexts E scope columns groups rows
  let contexts ← ordered E scope keys contexts
  contexts.mapM fun c => Expr.meanings E scope (columns.map (·.expr)) c

/-- A row of the left side with each row of the right side for which the condition is true. If there
is none, a left join pairs the row with nulls. -/
def joinedRows (kind : JoinKind) (condition : Expr) (width : Nat) (rights : List (List V))
    (left : List V) : Option (List (List V)) := do
  let found ← keepTrue E (fun right => condition.meaning E scope (.ofRow (left ++ right))) rights
  return if found = [] ∧ kind = .left then [left ++ List.replicate width E.null]
    else found.map (left ++ ·)

/-- One row of each class of equal rows. -/
def distinctRows (rows : List (List V)) : List (List V) :=
  pick rows ((E.classes rows).filterMap List.head?)

variable (db : Tables V)

mutual

def Statement.rows : Statement → Option (List (List V))
  | .select columns source condition groups keys => do
    let (scope, rows) ← source.rows
    selectRows E scope columns condition groups keys rows
  | .union all left right => do
    let rows := (← left.rows) ++ (← right.rows)
    return if all then rows else distinctRows E rows

def Source.rows : Source → Option (Scope × List (List V))
  | .nothing => some ([], [[]])
  | .item table => do
    let (names, rows) ← table.rows
    return ([(table.owner, names)], rows)
  | .join left kind right condition => do
    let (scope, lefts) ← left.rows
    let (names, rights) ← right.rows
    let scope := scope ++ [(right.owner, names)]
    let rows ← lefts.mapM (joinedRows E scope kind condition names.length rights)
    return (scope, rows.flatten)

def TableRef.rows : TableRef → Option (List String × List (List V))
  | .table name _ => (db name).map fun t => (t.names, t.rows)
  | .subquery query _ => do return (query.names, ← query.rows)

end

end

end Sql

end Crosstab
