import Crosstab.Proofs.Query.Builders
import Crosstab.Proofs.Query.Judgement
import Crosstab.Proofs.Sql.WellNamed

/-!
# Kinds of SQL columns

SQL computes with integers, reals and texts, and gives every column of a result a kind by rules of
its own. A plan has declared types. The two agree, column by column and for every node, where the
rows that are concatenated have the same types on both sides. A concatenation that widens integers
to reals does so in its schema alone: its statement shows the integers as they are.

* `Sql.Expr.HasKind` and `Sql.Statement.HasKinds` are the rules of SQL, `DataType.kind` the kind
  that a declared type stands for;
* `Expr.hasKind_sql` says that a compiled expression has the kind of its type;
* `Plan.hasKinds_of_statement` is the induction over the operators;
* `Query.statement_hasKinds` is the statement.
-/

namespace Crosstab

namespace Sql

/-! ## Kinds of expressions -/

/-- What SQL computes with. -/
inductive Kind
  | integer
  | real
  | text
  deriving DecidableEq

def Literal.kind? : Literal → Option Kind
  | .integer _ | .boolean _ => some .integer
  | .real _ => some .real
  | .text _ => some .text
  | .null => none

/-- What an arithmetic operation on two kinds gives. -/
def Kind.arithmetic (k l : Kind) : Kind := if k = .real ∨ l = .real then .real else .integer

/-- The operation calculates; the others compare, or join truth values. -/
def BinaryOp.isArithmetic : BinaryOp → Bool
  | .add | .sub | .mul | .div => true
  | _ => false

end Sql

/-- The kind of a column of a type. Truth values are integers. -/
def DataType.kind : DataType → Sql.Kind
  | boolean | integer => .integer
  | real => .real
  | text => .text

namespace Sql

/-- What a SELECT draws from: the name of each table or subquery, and the kinds of its columns. -/
abbrev KindScope := List (String × List (String × Kind))

/-- The expression has the kind. A null may have any kind, and a column has the kind that it has in
the table or subquery it comes from. -/
inductive Expr.HasKind (scope : KindScope) : Expr → Kind → Prop where
  | literal {value : Literal} {kind : Kind} (own : value.kind? = some kind) :
      HasKind scope (.literal value) kind
  | null (kind : Kind) : HasKind scope (.literal .null) kind
  | column {owner : Option String} {name side id : String} {columns : List (String × Kind)}
      {kind : Kind} (drawn : (side, columns) ∈ scope) (owned : ∀ o ∈ owner, SameName side o)
      (mem : (id, kind) ∈ columns) (named : SameName id name) :
      HasKind scope (.column owner name) kind
  | arithmetic {left right : Expr} {op : BinaryOp} {k l : Kind}
      (calculates : op.isArithmetic = true) (first : HasKind scope left k)
      (second : HasKind scope right l) :
      HasKind scope (.binary left op right) (k.arithmetic l)
  | truth {left right : Expr} {op : BinaryOp} {k l : Kind} (decides : op.isArithmetic = false)
      (first : HasKind scope left k) (second : HasKind scope right l) :
      HasKind scope (.binary left op right) .integer
  | not {operand : Expr} {k : Kind} (e : HasKind scope operand k) :
      HasKind scope (.not operand) .integer
  | isNull {operand : Expr} {k : Kind} (negated : Bool) (e : HasKind scope operand k) :
      HasKind scope (.isNull operand negated) .integer
  | rowNumber (keys : List (Expr × Bool)) : HasKind scope (.window "row_number" [] keys) .integer
  | cast {operand : Expr} {k : Kind} (type : DataType) (e : HasKind scope operand k) :
      HasKind scope (.cast operand type) type.kind
  | count (args : List Expr) : HasKind scope (.call "count" args) .integer
  | avg {arg : Expr} {k : Kind} (e : HasKind scope arg k) : HasKind scope (.call "avg" [arg]) .real
  | sameKind {function : String} {arg : Expr} {k : Kind} (keeps : function ∈ ["sum", "min", "max"])
      (e : HasKind scope arg k) : HasKind scope (.call function [arg]) k
  | case {branches : List (Expr × Expr)} {otherwise : Option Expr} {k : Kind}
      (conditions : ∀ b ∈ branches, HasKind scope b.1 .integer)
      (values : ∀ b ∈ branches, HasKind scope b.2 k) (rest : ∀ e ∈ otherwise, HasKind scope e k) :
      HasKind scope (.case branches otherwise) k

/-! ## Kinds of statements -/

mutual

/-- The columns of the result have the kinds, and conditions are truth values. The first list gives
the tables that the statement draws from, in the order in which they stand, with the kinds of their
columns. -/
inductive Statement.HasKinds : KindScope → Statement → List Kind → Prop where
  | select {tables : KindScope} {columns : List SelectItem} {source : Source}
      {condition : Option Expr} {groups : List Expr} {keys : List (Expr × Bool)} {scope : KindScope}
      {kinds : List Kind} (drawn : Source.HasKinds tables source scope)
      (items : List.Forall₂ (Expr.HasKind scope) (columns.map (·.expr)) kinds)
      (decided : ∀ e ∈ condition, e.HasKind scope .integer) :
      Statement.HasKinds tables (.select columns source condition groups keys) kinds
  | union {tables others : KindScope} {left right : Statement} {kinds : List Kind} (all : Bool)
      (first : Statement.HasKinds tables left kinds)
      (second : Statement.HasKinds others right kinds) :
      Statement.HasKinds (tables ++ others) (.union all left right) kinds

inductive Source.HasKinds : KindScope → Source → KindScope → Prop where
  | item {tables : KindScope} {table : TableRef} {columns : List (String × Kind)}
      (drawn : TableRef.HasKinds tables table columns) :
      Source.HasKinds tables (.item table) [(table.owner, columns)]
  | join {tables others : KindScope} {left : Source} {right : TableRef} {condition : Expr}
      {scope : KindScope} {columns : List (String × Kind)} (kind : JoinKind)
      (first : Source.HasKinds tables left scope) (second : TableRef.HasKinds others right columns)
      (decided : condition.HasKind (scope ++ [(right.owner, columns)]) .integer) :
      Source.HasKinds (tables ++ others) (.join left kind right condition)
        (scope ++ [(right.owner, columns)])

inductive TableRef.HasKinds : KindScope → TableRef → List (String × Kind) → Prop where
  | table (name : String) (asName : Option String) (columns : List (String × Kind)) :
      TableRef.HasKinds [(name, columns)] (.table name asName) columns
  | subquery {tables : KindScope} {query : Statement} {kinds : List Kind} (asName : String)
      (inside : Statement.HasKinds tables query kinds) :
      TableRef.HasKinds tables (.subquery query asName) (query.names.zip kinds)

end

end Sql

open Sql

/-! ## Declared kinds -/

def Schema.kinds (s : Schema) : List Kind := s.columns.map fun c => c.type.kind

/-- The columns of a schema with the kinds that they are declared with. -/
def Schema.kinded (s : Schema) : List (String × Kind) := s.columns.map fun c => (c.id, c.type.kind)

theorem Schema.zip_kinds (s : Schema) : s.ids.zip s.kinds = s.kinded := List.zip_map' ..

theorem Schema.mem_kinded {s : Schema} {c : Column} (h : c ∈ s.columns) :
    (c.id, c.type.kind) ∈ s.kinded := List.mem_map_of_mem h

namespace Plan

/-- The tables that a plan draws from, from left to right, with the declared kinds. -/
def kindedTables {s : Schema} : Plan s → KindScope
  | table name s _ => [(name, s.kinded)]
  | project source .. | filter source .. | groupBy source .. | sort source .. | extend source ..
  | mapColumns source .. | mapColumnsAt source .. => source.kindedTables
  | concat left right _ | join left right .. => left.kindedTables ++ right.kindedTables

/-- The types that the operator at the top puts below each other, column by column. -/
def stacked {t : Schema} : Plan t → List (DataType × DataType)
  | concat (s := s) (r := r) _ _ _ =>
    (s.columns.zip r.columns).map fun (above, below) => (above.type, below.type)
  | _ => []

end Plan

/-- All rows that are concatenated anywhere in the query have the same types on both sides. -/
def Query.KeepsTypes (q : Query) : Prop :=
  ∀ node ∈ q.plan.nodes, ∀ types ∈ node.plan.stacked, types.1 = types.2

instance (q : Query) : Decidable q.KeepsTypes :=
  inferInstanceAs (Decidable (∀ node ∈ q.plan.nodes, _))

/-! ## Expressions -/

section
variable {s : Schema} {scope : KindScope}

theorem hasKind_constant {value : Scalar} {type : DataType} (fits : Expr.Declarable value type)
    {literal : Literal} (h : Sql.constant value type = .ok literal) :
    (Sql.Expr.literal literal).HasKind scope type.kind := by
  cases fits with
  | null =>
    cases h
    exact .null _
  | wider i =>
    cases h
    exact .literal rfl
  | own same =>
    cases value with
    | null => cases same
    | bool b =>
      cases same
      cases h
      exact .literal rfl
    | int i =>
      cases same
      cases h
      exact .literal rfl
    | real v =>
      cases same
      by_cases finite : v.isFinite = true
      · rw [Sql.constant, if_pos finite] at h
        cases h
        exact .literal rfl
      · rw [Sql.constant, if_neg finite] at h
        cases h
    | text t =>
      cases same
      by_cases nul : '\x00' ∈ t.toList
      · rw [Sql.constant, if_pos nul] at h
        cases h
      · rw [Sql.constant, if_neg nul] at h
        cases h
        exact .literal rfl

theorem DataType.kind_widen {l r type : DataType} (h : l.widen r = some type)
    (left : l.isNumeric = true) (right : r.isNumeric = true) :
    type.kind = l.kind.arithmetic r.kind := by
  cases l <;> cases left <;> cases r <;> cases right <;> cases h <;> rfl

theorem joinedOperands_eq_ok {op : Operation} {joiner : BinaryOp} {operands : List Sql.Expr}
    {e : Sql.Expr} (h : joinedOperands op joiner operands = .ok e) :
    joined joiner operands = some e := by
  unfold joinedOperands at h
  split at h
  · next joined found => rw [found, Except.ok.inj h]
  · cases h

/-- Truth values that are joined are a truth value. -/
theorem hasKind_joined {op : BinaryOp} (decides : op.isArithmetic = false)
    {types : List DataType} (all : ∀ t ∈ types, t = .boolean) {operands : List Sql.Expr}
    {compiled : Sql.Expr}
    (each : List.Forall₂ (fun e type => e.HasKind scope type.kind) operands types)
    (h : joined op operands = some compiled) : compiled.HasKind scope .integer := by
  refine joined_closed (P := fun e => e.HasKind scope .integer) (fun _ _ => .truth decides) ?_ h
  intro e he
  obtain ⟨type, mem, kind⟩ := exists_of_mem_left each he
  rwa [all type mem] at kind

/-- An operation has the kind of its type, if the operands do. -/
theorem hasKind_combined {op : Operation} {types : List DataType} {type : DataType}
    (accepts : op.Accepts types type) {operands : List Sql.Expr} {compiled : Sql.Expr}
    (each : List.Forall₂ (fun e type => e.HasKind scope type.kind) operands types)
    (h : combined op operands = .ok compiled) : compiled.HasKind scope type.kind := by
  cases accepts with
  | and nonempty all => exact hasKind_joined rfl all each (joinedOperands_eq_ok h)
  | or nonempty all => exact hasKind_joined rfl all each (joinedOperands_eq_ok h)
  | not =>
    obtain ⟨⟩ | ⟨kind, ⟨⟩⟩ := each
    cases h
    exact .not kind
  | isNull =>
    obtain ⟨⟩ | ⟨kind, ⟨⟩⟩ := each
    cases h
    exact .isNull false kind
  | isNotNull =>
    obtain ⟨⟩ | ⟨kind, ⟨⟩⟩ := each
    cases h
    exact .isNull true kind
  | comparison compares common =>
    obtain ⟨⟩ | ⟨left, ⟨⟩ | ⟨right, ⟨⟩⟩⟩ := each
    cases op <;> cases compares <;> cases h <;> exact .truth rfl left right
  | arithmetic calculates isNumber isNumber' common =>
    rw [DataType.kind_widen common isNumber isNumber']
    obtain ⟨⟩ | ⟨left, ⟨⟩ | ⟨right, ⟨⟩⟩⟩ := each
    simp only [List.mem_cons, List.not_mem_nil, or_false] at calculates
    obtain rfl | rfl | rfl | rfl := calculates <;> cases h <;> exact .arithmetic rfl left right

mutual

/-- The SQL of an expression has the kind of the expression's type, if its columns do. -/
theorem Expr.hasKind_sql
    (columns : ∀ c ∈ s.columns, (Sql.Expr.named c.id).HasKind scope c.type.kind) {e : Expr}
    {type : DataType} (typed : e.HasType s type) {compiled : Sql.Expr}
    (h : e.sql s = .ok compiled) : compiled.HasKind scope type.kind := by
  cases e with
  | column name =>
    obtain @⟨_, c, mem, named⟩ := typed
    obtain ⟨id, found, rfl⟩ := map_eq_ok_iff.1 h
    obtain ⟨d, hd, rfl⟩ := canonical_eq_ok found
    obtain rfl := Option.some.inj (hd.symm.trans (Schema.find?_eq_some_iff.2 ⟨mem, named⟩))
    exact columns d mem
  | const value type =>
    obtain ⟨⟩ | ⟨fits⟩ := typed
    obtain ⟨literal, found, rfl⟩ := map_eq_ok_iff.1 h
    exact hasKind_constant fits found
  | combine op operands =>
    obtain ⟨⟩ | ⟨⟩ | ⟨each, accepts⟩ := typed
    obtain ⟨below, found, made⟩ := bind_eq_ok_iff.1 h
    exact hasKind_combined accepts (hasKinds_sqls columns each found) made
  | rowNumber keys =>
    cases typed
    obtain ⟨order, -, made⟩ := bind_eq_ok_iff.1 h
    rw [← pure_eq_ok_iff.1 made]
    exact .rowNumber order

theorem Expr.hasKinds_sqls
    (columns : ∀ c ∈ s.columns, (Sql.Expr.named c.id).HasKind scope c.type.kind) {es : List Expr}
    {types : List DataType} (typed : List.Forall₂ (HasType s) es types) {compiled : List Sql.Expr}
    (h : sqls s es = .ok compiled) :
    List.Forall₂ (fun e type => e.HasKind scope type.kind) compiled types := by
  cases es with
  | nil =>
    cases typed
    cases h
    exact .nil
  | cons e es =>
    obtain ⟨⟩ | ⟨first, rest⟩ := typed
    obtain ⟨head, hh, h⟩ := bind_eq_ok_iff.1 h
    obtain ⟨tail, ht, h⟩ := bind_eq_ok_iff.1 h
    rw [← pure_eq_ok_iff.1 h]
    exact .cons (hasKind_sql columns first hh) (hasKinds_sqls columns rest ht)

end

end

/-! ## Select lists -/

theorem exprs_shown (s : Schema) :
    (shown s).map (·.expr) = s.columns.map fun c => Sql.Expr.named c.id := by
  rw [shown, List.map_map]
  rfl

section
variable {s t : Schema} {owner : String}

/-- A column of the only child has its declared kind. -/
theorem hasKind_named {c : Column} (h : c ∈ s.columns) :
    (Sql.Expr.named c.id).HasKind [(owner, s.kinded)] c.type.kind := by
  refine .column List.mem_cons_self ?_ (Schema.mem_kinded h) (SameName.refl _)
  rintro _ ⟨⟩

/-- So have several columns of it. -/
theorem hasKinds_named {columns : List Column} (sub : ∀ c ∈ columns, c ∈ s.columns) :
    List.Forall₂ (Sql.Expr.HasKind [(owner, s.kinded)]) (columns.map fun c => .named c.id)
      (columns.map fun c => c.type.kind) := by
  rw [List.forall₂_map_left_iff, List.forall₂_map_right_iff, List.forall₂_same]
  intro c hc
  exact hasKind_named (sub c hc)

/-- An aggregate has the kind of its type. -/
theorem hasKind_aggregateExpr {func : Aggregate} {c : Column} (h : c ∈ s.columns)
    {type : DataType} (derived : func.outputType c.type = .ok type) :
    (aggregateExpr func c.id c.type).HasKind [(owner, s.kinded)] type.kind := by
  have arg : (Sql.Expr.named c.id).HasKind [(owner, s.kinded)] c.type.kind := hasKind_named h
  have applied {name : String} (keeps : name ∈ ["sum", "min", "max"]) :
      (Sql.Expr.call name [.named c.id]).HasKind [(owner, s.kinded)] c.type.kind :=
    .sameKind keeps arg
  cases func with
  | sum =>
    simp only [Aggregate.outputType] at derived
    split at derived <;> cases derived
    exact applied (by decide)
  | avg =>
    simp only [Aggregate.outputType] at derived
    split at derived <;> cases derived
    exact .avg arg
  | count =>
    cases derived
    exact .count _
  | min | max =>
    cases derived
    exact applied (by decide)
  | uniq =>
    cases derived
    apply Sql.Expr.HasKind.case
    · exact List.forall_mem_singleton.2 (.truth rfl (applied (by decide)) (applied (by decide)))
    · exact List.forall_mem_singleton.2 (applied (by decide))
    · rintro _ ⟨⟩
      exact .null _
  | null =>
    cases derived
    exact .cast c.type (.null .integer)

theorem hasKinds_aggregates {aggregates : List AggregateColumn} {rest : List SelectItem}
    {columns : List Column} (items : aggregates.mapM (aggregateItem s) = .ok rest)
    (derived : List.Forall₂ (fun a c => s.aggregated a = .ok c) aggregates columns) :
    List.Forall₂ (Sql.Expr.HasKind [(owner, s.kinded)]) (rest.map (·.expr))
      (columns.map fun c => c.type.kind) := by
  have each := mapM_eq_ok_iff.1 items
  clear items
  induction derived generalizing rest with
  | nil =>
    cases each
    exact .nil
  | cons first _ ih =>
    obtain ⟨⟩ | ⟨item, others⟩ := each
    obtain ⟨c, hc, rfl⟩ := aggregateItem_eq_ok item
    obtain ⟨input, type, hi, output, rfl⟩ := Schema.aggregated_eq_ok_iff.1 first
    obtain rfl := Option.some.inj (hc.symm.trans hi)
    exact .cons (hasKind_aggregateExpr (Schema.find?_eq_some_iff.1 hc).1 output) (ih others)

/-- The group columns, then the aggregates. -/
theorem hasKinds_grouping {names : List String} {aggregates : List AggregateColumn}
    (derived : s.groupBy names aggregates = .ok t) {groups : List Sql.Expr}
    {rest : List SelectItem} (grouped : groupColumns s names = .ok groups)
    (items : aggregates.mapM (aggregateItem s) = .ok rest) :
    List.Forall₂ (Sql.Expr.HasKind [(owner, s.kinded)])
      ((groups.map SelectItem.plain ++ rest).map (·.expr)) t.kinds := by
  obtain ⟨-, keys, others, columns, found, each⟩ := Schema.groupBy_eq_ok_iff.1 derived
  have named : groups = keys.map fun c => .named c.id := by
    rw [groupColumns_eq grouped]
    exact map_eq_map_of_forall₂ found fun name c hc => by rw [idOf_eq hc]
  have plain : (groups.map SelectItem.plain).map (·.expr) = groups := by
    rw [List.map_map]
    exact List.map_id groups
  rw [Schema.kinds, columns, List.map_append, List.map_append, plain, named]
  exact List.rel_append (hasKinds_named (Schema.mem_of_found found))
    (hasKinds_aggregates items each)

/-- The old columns, then the new one, cast where its type is not the declared one. -/
theorem hasKinds_extended {column : String} {type : DataType} {value : Expr}
    (derived : s.extend column type value = .ok t) {compiled : Sql.Expr}
    (valued : value.sql s = .ok compiled) :
    List.Forall₂ (Sql.Expr.HasKind [(owner, s.kinded)])
      ((shown s ++ [(⟨Plan.derivedExpr s type value compiled, some column⟩ : SelectItem)]).map
        (·.expr)) t.kinds := by
  obtain ⟨-, actual, typed, -, columns⟩ := Schema.extend_eq_ok_iff.1 derived
  have kind : compiled.HasKind [(owner, s.kinded)] actual.kind :=
    Expr.hasKind_sql (fun c hc => hasKind_named hc) (Expr.hasType_iff.2 typed) valued
  have last : (Plan.derivedExpr s type value compiled).HasKind [(owner, s.kinded)] type.kind := by
    unfold Plan.derivedExpr
    split
    · next same =>
      rw [typed] at same
      rwa [← Option.some.inj same]
    · exact .cast type kind
  rw [Schema.kinds, columns, List.map_append, List.map_append, exprs_shown]
  exact List.rel_append (hasKinds_named fun _ hc => hc) (.cons last .nil)

/-- Renamed columns keep their kinds. -/
theorem hasKinds_renamed (types : t.columns.map (·.type) = s.columns.map (·.type))
    {items : List SelectItem}
    (h : ((s.columns.zip t.columns).mapM fun (old, new) => renamedItem old new) = .ok items) :
    List.Forall₂ (Sql.Expr.HasKind [(owner, s.kinded)]) (items.map (·.expr)) t.kinds := by
  have kinds : t.kinds = s.columns.map fun c => c.type.kind := by
    have mapped := congrArg (List.map DataType.kind) types
    rwa [List.map_map, List.map_map] at mapped
  obtain ⟨-, exprs⟩ := Plan.renamed_select types h
  rw [exprs, exprs_shown, kinds]
  exact hasKinds_named fun _ hc => hc

end

/-! ## Joins and concatenations -/

section
variable {s r t : Schema} {keys : List String} {left right : String}

theorem hasKind_left {c : Column} (h : c ∈ s.columns) :
    (Sql.Expr.qualified left c.id).HasKind [(left, s.kinded), (right, r.kinded)] c.type.kind := by
  refine .column List.mem_cons_self ?_ (Schema.mem_kinded h) (SameName.refl _)
  rintro _ ⟨⟩
  exact SameName.refl _

theorem hasKind_right {c : Column} (h : c ∈ r.columns) :
    (Sql.Expr.qualified right c.id).HasKind [(left, s.kinded), (right, r.kinded)] c.type.kind := by
  refine .column (List.mem_cons_of_mem _ List.mem_cons_self) ?_ (Schema.mem_kinded h)
    (SameName.refl _)
  rintro _ ⟨⟩
  exact SameName.refl _

/-- Each column of a join has the kind that it has on the side it comes from. -/
theorem hasKinds_joined (derived : s.join r keys = .ok t) {items : List SelectItem}
    (h : t.columns.mapM (joinItem s left right) = .ok items) :
    List.Forall₂ (Sql.Expr.HasKind [(left, s.kinded), (right, r.kinded)]) (items.map (·.expr))
      t.kinds := by
  rw [joinItems_eq h, List.map_map, Schema.kinds, List.forall₂_map_left_iff,
    List.forall₂_map_right_iff, List.forall₂_same]
  intro c hc
  by_cases has : s.has c.id = true
  · rw [Function.comp_apply, if_pos has]
    exact hasKind_left (Schema.mem_left_of_has derived hc has)
  · rw [Function.comp_apply, if_neg has]
    exact hasKind_right (Schema.mem_right_of_not_has derived hc (Bool.not_eq_true _ ▸ has))

/-- The condition of a join is a truth value. -/
theorem hasKind_joinCondition (derived : s.join r keys = .ok t) {nullSafe : Bool}
    {condition : Sql.Expr} (h : joinCondition s r left right nullSafe keys = .ok condition) :
    condition.HasKind [(left, s.kinded), (right, r.kinded)] .integer := by
  refine joined_closed (P := fun e => e.HasKind _ .integer) (fun _ _ => .truth rfl) ?_
    (joinCondition_eq h)
  intro e he
  obtain ⟨key, hk, rfl⟩ := List.mem_map.1 he
  obtain ⟨c, d, hc, hd, -⟩ := Schema.key_of_join derived hk
  rw [keyComparison, idOf_eq hc, idOf_eq hd]
  have compares : (if nullSafe then BinaryOp.is else .eq).isArithmetic = false := by
    cases nullSafe <;> rfl
  exact .truth compares (hasKind_left (Schema.find?_eq_some_iff.1 hc).1)
    (hasKind_right (Schema.find?_eq_some_iff.1 hd).1)

/-- Where both sides have the same types, these are the types of the concatenation. -/
theorem Schema.kinds_of_concat (derived : s.concat r = .ok t)
    (keeps : ∀ pair ∈ s.columns.zip r.columns, pair.1.type = pair.2.type) :
    s.kinds = t.kinds ∧ r.kinds = t.kinds := by
  obtain ⟨len, each⟩ := Schema.concat_eq_ok_iff.1 derived
  have above : s.kinds = (s.columns.zip r.columns).map fun pair => pair.1.type.kind := by
    rw [Schema.kinds]
    conv_lhs => rw [← List.map_fst_zip (Nat.le_of_eq len), List.map_map]
    rfl
  have below : r.kinds = (s.columns.zip r.columns).map fun pair => pair.2.type.kind := by
    rw [Schema.kinds]
    conv_lhs => rw [← List.map_snd_zip (Nat.le_of_eq len.symm), List.map_map]
    rfl
  have type {pair : Column × Column} {c : Column} (mem : pair ∈ s.columns.zip r.columns)
      (made : concatColumn pair.1 pair.2 = .ok c) : c.type = pair.1.type := by
    obtain ⟨-, type, widened, rfl⟩ := Schema.concatColumn_eq_ok_iff.1 made
    have own : pair.1.type.widen pair.1.type = some pair.1.type := if_pos rfl
    rw [← keeps pair mem, own] at widened
    exact (Option.some.inj widened).symm
  rw [above, below]
  constructor
  · refine map_eq_map_of_forall₂ (forall₂_mem each) fun pair c ⟨mem, made⟩ => ?_
    rw [type mem made]
  · refine map_eq_map_of_forall₂ (forall₂_mem each) fun pair c ⟨mem, made⟩ => ?_
    rw [type mem made, keeps pair mem]

end

/-! ## Plans -/

theorem Query.KeepsTypes.node {q node : Query} (h : q.KeepsTypes) (inside : node ∈ q.plan.nodes) :
    node.KeepsTypes := fun part mem => h part (Plan.nodes_subset inside mem)

theorem Query.KeepsTypes.child {q child : Query} (h : q.KeepsTypes)
    (below : child ∈ q.plan.children) : child.KeepsTypes := by
  apply h.node
  rw [Plan.nodes_eq]
  exact List.mem_cons_of_mem _ (List.mem_flatMap.2 ⟨child, below, List.mem_cons_self⟩)

namespace Plan

theorem DrawsFrom.hasKinds {s : Schema} {p : Plan s} {number : Nat} {ref : TableRef}
    (h : p.DrawsFrom number ref)
    (inside : ∀ st, p.statement (number + 1) = .ok st → st.HasKinds p.kindedTables s.kinds) :
    ref.HasKinds p.kindedTables s.kinded := by
  cases h with
  | table => exact .table _ _ _
  | statement hs =>
    have names := (p.statement_compiled _ _ hs).names
    rw [← Schema.zip_kinds, ← names]
    exact .subquery _ (inside _ hs)

/-- The columns of a child that are shown as they are keep their kinds. -/
theorem hasKinds_shown {s t : Schema} {tables : KindScope} {ref : TableRef}
    (drawn : ref.HasKinds tables s.kinded) (sub : ∀ c ∈ t.columns, c ∈ s.columns)
    {condition : Option Sql.Expr} {keys : List (Sql.Expr × Bool)}
    (decided : ∀ e ∈ condition, e.HasKind [(ref.owner, s.kinded)] .integer) :
    (Statement.select (shown t) (.item ref) condition [] keys).HasKinds tables t.kinds := by
  refine .select (.item drawn) ?_ decided
  rw [exprs_shown]
  exact hasKinds_named sub

/-- The two statements that are concatenated show the rows of both sides as they are. -/
theorem hasKinds_arms {s r t : Schema} {left : Plan s} {right : Plan r}
    {derived : s.concat r = .ok t}
    (insideLeft : ∀ next st, left.statement next = .ok st → st.HasKinds left.kindedTables s.kinds)
    (insideRight : ∀ next st, right.statement next = .ok st →
      st.HasKinds right.kindedTables r.kinds)
    {next : Nat} {st : Statement} (h : (concat left right derived).statement next = .ok st) :
    ∃ above below, st = .union true above below ∧ above.HasKinds left.kindedTables s.kinds ∧
      below.HasKinds right.kindedTables r.kinds := by
  have .concat leftChild rightChild := emits_of_statement h
  exact ⟨_, _, rfl, hasKinds_shown (leftChild.hasKinds (insideLeft _)) (fun _ hc => hc) nofun,
    hasKinds_shown (rightChild.hasKinds (insideRight _)) (fun _ hc => hc) nofun⟩

theorem hasKinds_of_statement {s : Schema} (p : Plan s) (keeps : Query.KeepsTypes ⟨s, p⟩)
    (next : Nat) (st : Statement) (h : p.statement next = .ok st) :
    st.HasKinds p.kindedTables s.kinds := by
  -- The children's statements stand inside, so theirs is what the induction says.
  induction p generalizing next st with
  | table name s named =>
    cases emits_of_statement h
    exact hasKinds_shown (.table _ _ _) (fun _ hc => hc) nofun
  | @project s t source columns derived ih =>
    have .project child := emits_of_statement h
    have drawn := child.hasKinds (ih (keeps.child List.mem_cons_self) _)
    have sub := Schema.mem_of_found (Schema.project_eq_ok_iff.1 derived).2
    exact hasKinds_shown drawn sub nofun
  | @filter s source predicate checked ih =>
    have .filter child compiled := emits_of_statement h
    have drawn := child.hasKinds (ih (keeps.child List.mem_cons_self) _)
    obtain ⟨-, typed⟩ := Schema.checkPredicate_eq_ok_iff.1 checked
    apply hasKinds_shown drawn fun _ hc => hc
    rintro _ ⟨⟩
    exact Expr.hasKind_sql (fun c hc => hasKind_named hc) (Expr.hasType_iff.2 typed) compiled
  | @groupBy s t source columns aggregates derived ih =>
    have .groupBy child grouped aggregated := emits_of_statement h
    have drawn := child.hasKinds (ih (keeps.child List.mem_cons_self) _)
    exact .select (.item drawn) (hasKinds_grouping derived grouped aggregated) nofun
  | @sort s source keys checked ih =>
    have .sort child ordered := emits_of_statement h
    have drawn := child.hasKinds (ih (keeps.child List.mem_cons_self) _)
    exact hasKinds_shown drawn (fun _ hc => hc) nofun
  | @extend s t source column type value derived ih =>
    have .extend child valued := emits_of_statement h
    have drawn := child.hasKinds (ih (keeps.child List.mem_cons_self) _)
    exact .select (.item drawn) (hasKinds_extended derived valued) nofun
  | @mapColumns s t source mapping derived ih =>
    have .mapColumns child renamed := emits_of_statement h
    have drawn := child.hasKinds (ih (keeps.child List.mem_cons_self) _)
    have types := Schema.types_of_mapColumns derived
    exact .select (.item drawn) (hasKinds_renamed types renamed) nofun
  | @mapColumnsAt s t source mapping derived ih =>
    have .mapColumnsAt child renamed := emits_of_statement h
    have drawn := child.hasKinds (ih (keeps.child List.mem_cons_self) _)
    have types := Schema.types_of_mapColumnsAt derived
    exact .select (.item drawn) (hasKinds_renamed types renamed) nofun
  | @concat s r t left right derived ihl ihr =>
    have first := ihl (keeps.child List.mem_cons_self)
    have second := ihr (keeps.child (List.mem_cons_of_mem _ List.mem_cons_self))
    obtain ⟨above, below, rfl, ofLeft, ofRight⟩ := hasKinds_arms first second h
    have same : ∀ pair ∈ s.columns.zip r.columns, pair.1.type = pair.2.type := fun pair mem =>
      keeps ⟨t, concat left right derived⟩ List.mem_cons_self _ (List.mem_map_of_mem mem)
    obtain ⟨leftKinds, rightKinds⟩ := Schema.kinds_of_concat derived same
    exact .union true (leftKinds ▸ ofLeft) (rightKinds ▸ ofRight)
  | @join s r t left right keys kind nullSafe derived ihl ihr =>
    have .join leftChild rightChild paired compiled := emits_of_statement h
    have leftDrawn := leftChild.hasKinds (ihl (keeps.child List.mem_cons_self) _)
    have rightDrawn := rightChild.hasKinds
      (ihr (keeps.child (List.mem_cons_of_mem _ List.mem_cons_self)) _)
    refine .select (.join kind (.item leftDrawn) rightDrawn ?_) ?_ nofun
    · exact hasKind_joinCondition derived compiled
    · exact hasKinds_joined derived paired

end Plan

/-- If no rows are concatenated whose types differ, the statement of every node has, column by
column, the kinds that the node's schema declares, and so have the statements inside it. Where rows
are concatenated, each of the two statements has the kinds of its own side, whatever the type of the
concatenation. -/
theorem Query.statement_hasKinds (q : Query) :
    (q.KeepsTypes → ∀ node ∈ q.plan.nodes, ∀ next st, node.plan.statement next = .ok st →
      st.HasKinds node.plan.kindedTables node.schema.kinds) ∧
    ∀ left right : Query, left.KeepsTypes → right.KeepsTypes → left.concat right = .ok q →
      ∀ next st, q.plan.statement next = .ok st → ∃ above below, st = .union true above below ∧
        above.HasKinds left.plan.kindedTables left.schema.kinds ∧
        below.HasKinds right.plan.kindedTables right.schema.kinds := by
  constructor
  · intro keeps node mem next st h
    exact node.plan.hasKinds_of_statement (keeps.node mem) next st h
  · intro left right leftKeeps rightKeeps made next st h
    obtain ⟨t, derived, rfl⟩ := Query.concat_eq_ok_iff.1 made
    exact Plan.hasKinds_arms (left.plan.hasKinds_of_statement leftKeeps)
      (right.plan.hasKinds_of_statement rightKeeps) h

/-- Sales and half of each, twice over, with the average half of every region. -/
def halvedSales : Except Error Query := do
  let columns := [.named "Region" .text, .named "quantity" .integer]
  let sales ← (Query.table "sales" ⟨columns, by decide, by decide⟩).mapError .build
  let halved ← sales.extend "half" .real (.combine .div [.column "QUANTITY", .const (.int 2) .real])
  let twice ← (halved.concat halved).mapError .build
  let marked ← twice.extend "label" .text (.column "half")
  let measures : List AggregateColumn := [⟨.avg, "half"⟩, ⟨.uniq, "label"⟩, ⟨.count, "quantity"⟩]
  (marked.groupBy ["region"] measures).mapError .build

/-- Whole readings and exact ones, in one column that is declared as real. -/
def mixedReadings : Except Error Query := do
  let whole ← (Query.table "whole" ⟨[.named "x" .integer], by decide, by decide⟩).mapError .build
  let exact ← (Query.table "exact" ⟨[.named "x" .real], by decide, by decide⟩).mapError .build
  (whole.concat exact).mapError .build

theorem statement_hasKinds_halvedSales : ∃ q st, halvedSales = .ok q ∧ q.KeepsTypes ∧
    q.statement = .ok st ∧ q.schema.kinds = [.text, .real, .text, .integer] ∧
    st.HasKinds q.plan.kindedTables q.schema.kinds := by
  obtain ⟨q, st, made, found⟩ : ∃ q st, halvedSales = .ok q ∧ q.statement = .ok st :=
    ⟨_, _, rfl, rfl⟩
  have shown : halvedSales.toOption.map (fun q => (decide q.KeepsTypes, q.schema.kinds)) =
      some (true, [.text, .real, .text, .integer]) := by
    decide +kernel
  rw [made] at shown
  obtain ⟨keeps, kinds⟩ := Prod.mk.inj (Option.some.inj shown)
  have keeps := of_decide_eq_true keeps
  obtain ⟨each, -⟩ := Query.statement_hasKinds q
  exact ⟨q, st, made, keeps, found, kinds, each keeps q List.mem_cons_self 0 st found⟩

/-- The one column of a table has in a statement the kind that it has in the table. -/
theorem kind_of_column {tables : KindScope} {table column : String} {asName : Option String}
    {kind : Kind} (h : Statement.HasKinds tables
      (.plain [.plain (.named column)] (.table table asName)) [kind]) :
    ∃ columns, tables = [(table, columns)] ∧ ∃ id, (id, kind) ∈ columns := by
  obtain @⟨_, _, _, _, _, _, _, _, drawn, items, -⟩ := h
  obtain ⟨⟨_, _, columns⟩⟩ := drawn
  obtain ⟨⟩ | ⟨item, -⟩ := items
  cases item with
  | column side _ mem _ =>
    obtain ⟨-, rfl⟩ := Prod.mk.inj (List.mem_singleton.1 side)
    exact ⟨_, rfl, _, mem⟩

theorem arms_of_hasKinds {tables : KindScope} {all : Bool} {left right : Statement}
    {kinds : List Kind} (h : Statement.HasKinds tables (.union all left right) kinds) :
    ∃ first second, tables = first ++ second ∧ Statement.HasKinds first left kinds ∧
      Statement.HasKinds second right kinds := by
  cases h with
  | union _ first second => exact ⟨_, _, rfl, first, second⟩

/-- The whole readings are shown as integers. -/
theorem statement_not_hasKinds_mixedReadings : ∃ q st, mixedReadings = .ok q ∧
    q.statement = .ok st ∧ q.schema.kinds = [.real] ∧
    ¬ st.HasKinds q.plan.kindedTables q.schema.kinds := by
  refine ⟨_, _, rfl, rfl, rfl, fun kinds => ?_⟩
  obtain ⟨first, second, tables, whole, -⟩ := arms_of_hasKinds kinds
  obtain ⟨columns, rfl, id, mem⟩ := kind_of_column whole
  obtain ⟨same, -⟩ := List.cons.inj tables
  obtain ⟨-, rfl⟩ := Prod.mk.inj same
  obtain ⟨-, kind⟩ := Prod.mk.inj (List.mem_singleton.1 mem)
  cases kind

end Crosstab
