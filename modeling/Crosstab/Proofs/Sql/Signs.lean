import Crosstab.Proofs.Query.Unsigned
import Crosstab.Sql.Compile

namespace Crosstab

/-- Two computations fail with the same error, or give results that a view does not tell apart. -/
def SameBy {ε α β : Type} (view : α → β) (x y : Except ε α) : Prop := x.map view = y.map view

namespace SameBy

section
variable {ε α β γ δ : Type} {view : α → β} {seen : γ → δ} {x y : Except ε α}

theorem refl (x : Except ε α) : SameBy view x x := rfl

theorem ok {a b : α} (h : view a = view b) : SameBy view (.ok a : Except ε α) (.ok b) :=
  congrArg Except.ok h

theorem error_iff (h : SameBy view x y) (e : ε) : x = .error e ↔ y = .error e := by
  have mapped : x.map view = y.map view := h
  rw [← map_eq_error_iff, mapped, map_eq_error_iff]

/-- Steps that are the same one after the other are the same as a whole. -/
theorem bind {f g : α → Except ε γ} (first : SameBy view x y)
    (rest : ∀ a b, view a = view b → SameBy seen (f a) (g b)) : SameBy seen (x >>= f) (y >>= g) := by
  cases x with
  | error e =>
    cases y with
    | error e' =>
      cases first
      rfl
    | ok => cases first
  | ok a =>
    cases y with
    | error => cases first
    | ok b => exact rest a b (Except.ok.inj first)

theorem after (x : Except ε α) {f g : α → Except ε γ} (rest : ∀ a, SameBy seen (f a) (g a)) :
    SameBy seen (x >>= f) (x >>= g) := by
  cases x with
  | error => rfl
  | ok a => exact rest a

theorem map {f g : α → γ} (h : SameBy view x y)
    (each : ∀ a b, view a = view b → seen (f a) = seen (g b)) :
    SameBy seen (x.map f) (y.map g) :=
  h.bind fun a b same => ok (each a b same)

end

end SameBy

namespace Sql

/-! ## Statements without signs -/

def Literal.unsigned : Literal → Literal
  | real v => real v.unsigned
  | value => value

namespace Expr

mutual

/-- The expression with every constant zero unsigned. -/
def unsigned : Expr → Expr
  | literal value => literal value.unsigned
  | column owner name => column owner name
  | binary left op right => binary left.unsigned op right.unsigned
  | not operand => not operand.unsigned
  | call function args => call function (unsignedAll args)
  | window function args keys => window function (unsignedAll args) (unsignedKeys keys)
  | cast operand type => cast operand.unsigned type
  | case branches otherwise => case (unsignedBranches branches) (unsignedElse otherwise)
  | isNull operand negated => isNull operand.unsigned negated
  | star => star

def unsignedAll : List Expr → List Expr
  | [] => []
  | e :: rest => e.unsigned :: unsignedAll rest

def unsignedKeys : List (Expr × Bool) → List (Expr × Bool)
  | [] => []
  | (e, ascending) :: rest => (e.unsigned, ascending) :: unsignedKeys rest

def unsignedBranches : List (Expr × Expr) → List (Expr × Expr)
  | [] => []
  | (condition, value) :: rest => (condition.unsigned, value.unsigned) :: unsignedBranches rest

def unsignedElse : Option Expr → Option Expr
  | none => none
  | some value => some value.unsigned

end

end Expr

def SelectItem.unsigned (item : SelectItem) : SelectItem := ⟨item.expr.unsigned, item.asName⟩

mutual

def Statement.unsigned : Statement → Statement
  | .select columns source condition groups keys =>
    .select (columns.map SelectItem.unsigned) source.unsigned (condition.map Expr.unsigned)
      (Expr.unsignedAll groups) (Expr.unsignedKeys keys)
  | .union all left right => .union all left.unsigned right.unsigned

def Source.unsigned : Source → Source
  | .nothing => .nothing
  | .item table => .item table.unsigned
  | .join left kind right condition => .join left.unsigned kind right.unsigned condition.unsigned

def TableRef.unsigned : TableRef → TableRef
  | .table name asName => .table name asName
  | .subquery query asName => .subquery query.unsigned asName

end

theorem TableRef.owner_unsigned (table : TableRef) : table.unsigned.owner = table.owner := by
  cases table <;> rfl

theorem Statement.plain_unsigned (columns : List SelectItem) (table : TableRef) :
    (Statement.plain columns table).unsigned =
      .plain (columns.map SelectItem.unsigned) table.unsigned := rfl

/-! ## Expressions -/

theorem sameBy_constant (value : Scalar) (type : DataType) :
    SameBy Literal.unsigned (constant value.unsigned type) (constant value type) := by
  cases value with
  | null | bool | int | text => exact .refl _
  | real v =>
    by_cases zero : v = .zero true
    · rw [zero]
      exact .ok rfl
    · rw [Scalar.unsigned, Double.unsigned_of_ne zero]
      exact .refl _

section
variable {as bs : List Expr} (same : as.map Expr.unsigned = bs.map Expr.unsigned)
include same

theorem unsigned_foldl (joiner : BinaryOp) {a b : Expr} (start : a.unsigned = b.unsigned) :
    (as.foldl (fun left right => .binary left joiner right) a).unsigned =
      (bs.foldl (fun left right => .binary left joiner right) b).unsigned := by
  induction as generalizing bs a b with
  | nil =>
    obtain rfl := List.map_eq_nil_iff.1 same.symm
    exact start
  | cons e as ih =>
    cases bs with
    | nil => cases same
    | cons e' bs =>
      obtain ⟨first, others⟩ := List.cons.inj same
      refine ih others ?_
      rw [Expr.unsigned, Expr.unsigned, start, first]

theorem sameBy_joinedOperands (op : Operation) (joiner : BinaryOp) :
    SameBy Expr.unsigned (joinedOperands op joiner as) (joinedOperands op joiner bs) := by
  cases as with
  | nil =>
    obtain rfl := List.map_eq_nil_iff.1 same.symm
    exact .refl _
  | cons a as =>
    cases bs with
    | nil => cases same
    | cons b bs =>
      obtain ⟨first, others⟩ := List.cons.inj same
      exact .ok (unsigned_foldl others joiner first)

theorem sameBy_lastOperand (op : Operation) {node : Expr → Expr}
    (each : ∀ a b, a.unsigned = b.unsigned → (node a).unsigned = (node b).unsigned) :
    SameBy Expr.unsigned (lastOperand op node as) (lastOperand op node bs) := by
  have last := congrArg List.getLast? same
  rw [List.getLast?_map, List.getLast?_map] at last
  unfold lastOperand
  generalize as.getLast? = a at last ⊢
  generalize bs.getLast? = b at last ⊢
  cases a with
  | none =>
    obtain rfl := Option.map_eq_none_iff.1 last.symm
    exact .refl _
  | some a =>
    cases b with
    | none => cases last
    | some b => exact .ok (each a b (Option.some.inj last))

end

theorem sameBy_combined (op : Operation) {as bs : List Expr}
    (same : as.map Expr.unsigned = bs.map Expr.unsigned) :
    SameBy Expr.unsigned (combined op as) (combined op bs) := by
  cases op with
  | and => exact sameBy_joinedOperands same .and .and
  | or => exact sameBy_joinedOperands same .or .or
  | not =>
    refine sameBy_lastOperand same .not fun a b h => ?_
    rw [Expr.unsigned, Expr.unsigned, h]
  | isNull | isNotNull =>
    refine sameBy_lastOperand same _ fun a b h => ?_
    rw [Expr.unsigned, Expr.unsigned, h]
  | eq | ne | lt | le | gt | ge | add | sub | mul | div =>
    have size : as.length = bs.length := by
      simpa only [List.length_map] using congrArg List.length same
    match as, bs with
    | [], [] | [_], [_] => exact .refl _
    | [a, a'], [b, b'] =>
      obtain ⟨left, right⟩ := List.cons.inj same
      refine .ok ?_
      rw [Expr.unsigned, Expr.unsigned, left, List.singleton_inj.1 right]
    | _ :: _ :: _ :: _, _ :: _ :: _ :: _ => simp only [combined, binaryOp?, size, SameBy]

end Sql

namespace Expr

mutual

/-- An expression without signs is compiled to the same expression but for signs. -/
theorem sameBy_sql (s : Schema) : ∀ e : Expr,
    SameBy Sql.Expr.unsigned (e.unsigned.sql s) (e.sql s)
  | .column _ | .rowNumber _ => .refl _
  | .const value type => (Sql.sameBy_constant value type).map fun _ _ same => by
    rw [Sql.Expr.unsigned, Sql.Expr.unsigned, same]
  | .combine op operands => (sameBy_sqls s operands).bind fun _ _ => Sql.sameBy_combined op

theorem sameBy_sqls (s : Schema) : ∀ es : List Expr,
    SameBy (List.map Sql.Expr.unsigned) (sqls s (unsignedAll es)) (sqls s es)
  | [] => .refl _
  | e :: es => (sameBy_sql s e).bind fun _ _ first => (sameBy_sqls s es).bind fun _ _ others =>
    .ok (congrArg₂ List.cons first others)

end

end Expr

/-! ## Plans -/

namespace Plan

open Sql (Statement TableRef SelectItem)

variable {s : Schema}

theorem aliasCount_unsigned (p : Plan s) : p.unsigned.aliasCount = p.aliasCount := by
  induction p <;> simp_all [unsigned, aliasCount]

theorem derivedExpr_unsigned (type : DataType) (value : Expr) {a b : Sql.Expr}
    (same : a.unsigned = b.unsigned) :
    (derivedExpr s type value.unsigned a).unsigned = (derivedExpr s type value b).unsigned := by
  rw [derivedExpr, derivedExpr, Expr.type_unsigned]
  split
  · exact same
  · rw [Sql.Expr.unsigned, Sql.Expr.unsigned, same]

theorem sameBy_tableRef (source : Plan s) (number : Nat) {x y : Except CompileError Statement}
    (h : SameBy Statement.unsigned x y) :
    SameBy TableRef.unsigned (source.unsigned.tableRef number x) (source.tableRef number y) := by
  cases source with
  | table => exact .refl _
  | _ => exact h.bind fun _ _ same => .ok (congrArg (TableRef.subquery · _) same)

/-- A plan without signs is compiled to the same statement but for signs. -/
theorem sameBy_statement (p : Plan s) (next : Nat) :
    SameBy Statement.unsigned (p.unsigned.statement next) (p.statement next) := by
  induction p generalizing next with
  | table => exact .refl _
  | project source _ _ ih | mapColumns source _ _ ih | mapColumnsAt source _ _ ih =>
    refine .after _ fun items => (sameBy_tableRef source next (ih _)).bind fun a b child => .ok ?_
    rw [Statement.plain_unsigned, Statement.plain_unsigned, child]
  | filter source predicate _ ih =>
    refine .after _ fun items => (sameBy_tableRef source next (ih _)).bind fun a b child => ?_
    refine (predicate.sameBy_sql _).bind fun e f condition => .ok ?_
    simp only [Statement.unsigned, Sql.Source.unsigned, child, Option.map_some, condition]
  | groupBy source _ _ _ ih =>
    refine .after _ fun groups => .after _ fun rest => ?_
    refine (sameBy_tableRef source next (ih _)).bind fun a b child => .ok ?_
    simp only [Statement.unsigned, Sql.Source.unsigned, child]
  | sort source _ _ ih =>
    refine .after _ fun items => (sameBy_tableRef source next (ih _)).bind fun a b child => ?_
    refine .after _ fun keys => .ok ?_
    simp only [Statement.unsigned, Sql.Source.unsigned, child]
  | extend source _ type value _ ih =>
    refine .after _ fun items => (value.sameBy_sql _).bind fun e f compiled => ?_
    refine .after _ fun asName => (sameBy_tableRef source next (ih _)).bind fun a b child => .ok ?_
    simp only [Statement.plain_unsigned, List.map_append, List.map_cons, List.map_nil,
      SelectItem.unsigned, derivedExpr_unsigned type value compiled, child]
  | concat left right _ ihl ihr =>
    simp only [unsigned, statement, aliasCount_unsigned]
    refine .after _ fun items => (sameBy_tableRef left next (ihl _)).bind fun a b first => ?_
    refine .after _ fun items' => (sameBy_tableRef right _ (ihr _)).bind fun c d second => .ok ?_
    simp only [Statement.unsigned, Statement.plain_unsigned, first, second]
  | join left right keys _ nullSafe _ ihl ihr =>
    simp only [unsigned, statement, aliasCount_unsigned]
    refine (sameBy_tableRef left next (ihl _)).bind fun a b first => ?_
    refine (sameBy_tableRef right _ (ihr _)).bind fun c d second => ?_
    rw [← a.owner_unsigned, ← c.owner_unsigned, first, second, b.owner_unsigned, d.owner_unsigned]
    refine .after _ fun items => .after _ fun condition => .ok ?_
    simp only [Statement.unsigned, Sql.Source.unsigned, first, second]

end Plan

/-- Queries that only differ in the signs of zeros have statements that only differ in those, or
fail with the same error. -/
theorem Query.sameBy_statement {q r : Query} (same : q.unsigned = r.unsigned) :
    SameBy Sql.Statement.unsigned q.statement r.statement := by
  have each (q : Query) : SameBy Sql.Statement.unsigned q.unsigned.statement q.statement :=
    q.plan.sameBy_statement 0
  have left := each q
  rw [same] at left
  exact left.symm.trans (each r)

end Crosstab
