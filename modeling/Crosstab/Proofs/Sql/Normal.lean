import Crosstab.Sql.Printer

namespace Crosstab

/-- The type that a column of a type has in SQL. -/
def DataType.stored : DataType → DataType
  | .boolean => .integer
  | type => type

theorem DataType.sqlName_stored (type : DataType) : type.stored.sqlName = type.sqlName := by
  cases type <;> rfl

namespace Sql

/-! ## Expressions -/

/-- A truth value as the integer that it is written as. -/
def Literal.normal : Literal → Literal
  | .boolean b => .integer (if b then 1 else 0)
  | value => value

namespace Expr

mutual

/-- The expression with integers for truth values, as constants and as types. -/
def normal : Expr → Expr
  | literal value => .literal value.normal
  | column owner name => .column owner name
  | binary left op right => .binary left.normal op right.normal
  | not operand => .not operand.normal
  | call function args => .call function (normalAll args)
  | window function args keys => .window function (normalAll args) (normalKeys keys)
  | cast operand type => .cast operand.normal type.stored
  | case branches otherwise => .case (normalBranches branches) (normalElse otherwise)
  | isNull operand negated => .isNull operand.normal negated
  | star => .star

def normalAll : List Expr → List Expr
  | [] => []
  | e :: rest => e.normal :: normalAll rest

def normalKeys : List (Expr × Bool) → List (Expr × Bool)
  | [] => []
  | (e, ascending) :: rest => (e.normal, ascending) :: normalKeys rest

def normalBranches : List (Expr × Expr) → List (Expr × Expr)
  | [] => []
  | (condition, value) :: rest => (condition.normal, value.normal) :: normalBranches rest

def normalElse : Option Expr → Option Expr
  | none => none
  | some value => some value.normal

end

theorem normalAll_eq (es : List Expr) : normalAll es = es.map normal := by
  induction es with
  | nil => rfl
  | cons e es ih => rw [normalAll, ih, List.map_cons]

theorem normalKeys_eq (keys : List (Expr × Bool)) :
    normalKeys keys = keys.map fun k => (k.1.normal, k.2) := by
  induction keys with
  | nil => rfl
  | cons k keys ih => rw [normalKeys, ih, List.map_cons]

theorem normalBranches_eq (branches : List (Expr × Expr)) :
    normalBranches branches = branches.map fun b => (b.1.normal, b.2.normal) := by
  induction branches with
  | nil => rfl
  | cons b branches ih => rw [normalBranches, ih, List.map_cons]

theorem normalElse_eq (otherwise : Option Expr) : normalElse otherwise = otherwise.map normal := by
  cases otherwise <;> rfl

theorem renderAll_eq (es : List Expr) : renderAll es = es.map render := by
  induction es with
  | nil => rfl
  | cons e es ih => rw [renderAll, ih, List.map_cons]

def keyText (key : Expr × Bool) : String := key.1.render ++ " " ++ directionText key.2

theorem renderKeys_eq (keys : List (Expr × Bool)) : renderKeys keys = keys.map keyText := by
  induction keys with
  | nil => rfl
  | cons k keys ih => rw [renderKeys, ih, List.map_cons, keyText]

theorem render_normal_literal (value : Literal) : value.normal.render = value.render := by
  cases value with
  | boolean b => cases b <;> rfl
  | _ => rfl

mutual

/-- An expression is written the same with integers for truth values. -/
theorem render_normal (e : Expr) : e.normal.render = e.render := by
  cases e with
  | literal value => exact render_normal_literal value
  | column | star => rfl
  | binary left op right => simp only [normal, render, render_normal left, render_normal right]
  | not operand => simp only [normal, render, render_normal operand]
  | call function args => simp only [normal, render, renderAll_normal args]
  | window function args keys =>
    simp only [normal, render, renderAll_normal args, renderKeys_normal keys]
  | cast operand type => simp only [normal, render, render_normal operand, DataType.sqlName_stored]
  | case branches otherwise =>
    simp only [normal, render, renderBranches_normal branches, renderElse_normal otherwise]
  | isNull operand negated => simp only [normal, render, render_normal operand]

theorem renderAll_normal (es : List Expr) : renderAll (normalAll es) = renderAll es := by
  cases es with
  | nil => rfl
  | cons e es => simp only [normalAll, renderAll, render_normal e, renderAll_normal es]

theorem renderKeys_normal (keys : List (Expr × Bool)) :
    renderKeys (normalKeys keys) = renderKeys keys := by
  match keys with
  | [] => rfl
  | (e, ascending) :: keys =>
    simp only [normalKeys, renderKeys, render_normal e, renderKeys_normal keys]

theorem renderBranches_normal (branches : List (Expr × Expr)) :
    renderBranches (normalBranches branches) = renderBranches branches := by
  match branches with
  | [] => rfl
  | (condition, value) :: branches =>
    simp only [normalBranches, renderBranches, render_normal condition, render_normal value,
      renderBranches_normal branches]

theorem renderElse_normal (otherwise : Option Expr) :
    renderElse (normalElse otherwise) = renderElse otherwise := by
  match otherwise with
  | none => rfl
  | some value => simp only [normalElse, renderElse, render_normal value]

end

end Expr

/-! ## Statements -/

def SelectItem.normal (item : SelectItem) : SelectItem := ⟨item.expr.normal, item.asName⟩

mutual

def Statement.normal : Statement → Statement
  | .select columns source condition groups keys =>
    .select (columns.map SelectItem.normal) source.normal (condition.map Expr.normal)
      (Expr.normalAll groups) (Expr.normalKeys keys)
  | .union all left right => .union all left.normal right.normal

def Source.normal : Source → Source
  | .nothing => .nothing
  | .item table => .item table.normal
  | .join left kind right condition => .join left.normal kind right.normal condition.normal

def TableRef.normal : TableRef → TableRef
  | .table name asName => .table name asName
  | .subquery query asName => .subquery query.normal asName

end

theorem SelectItem.render_normal (item : SelectItem) : item.normal.render = item.render := by
  simp only [SelectItem.render, SelectItem.normal, Expr.render_normal]

theorem whereClause_normal (condition : Option Expr) :
    whereClause (condition.map Expr.normal) = whereClause condition := by
  cases condition with
  | none => rfl
  | some e => simp only [Option.map_some, whereClause, Expr.render_normal]

mutual

/-- A statement is written the same with integers for truth values. -/
theorem Statement.render_normal (st : Statement) : st.normal.render = st.render := by
  cases st with
  | select columns source condition groups keys =>
    have items : (columns.map SelectItem.normal).map SelectItem.render =
        columns.map SelectItem.render := by
      rw [List.map_map]
      exact List.map_congr_left fun item _ => item.render_normal
    simp only [Statement.normal, Statement.render, items, source.render_normal, whereClause_normal,
      Expr.renderAll_normal, Expr.renderKeys_normal]
  | union all left right =>
    simp only [Statement.normal, Statement.render, left.render_normal, right.render_normal]

theorem Source.render_normal (source : Source) : source.normal.render = source.render := by
  cases source with
  | nothing => rfl
  | item table => simp only [Source.normal, Source.render, table.render_normal]
  | join left kind right condition =>
    simp only [Source.normal, Source.render, left.render_normal, right.render_normal,
      Expr.render_normal]

theorem TableRef.render_normal (table : TableRef) : table.normal.render = table.render := by
  cases table with
  | table name asName => rfl
  | subquery query asName => simp only [TableRef.normal, TableRef.render, query.render_normal]

end

end Sql

end Crosstab
