import Mathlib.Data.List.Nodup
import Crosstab.Proofs.Sql.Items
import Crosstab.Proofs.Sql.Scope

/-!
# Compiled statements are well named

Every name in the statement of a query means one thing.

* `Sql.OverColumns` says what a compiled scalar expression is made of;
* `Plan.statement_compiled` is the induction over the operators, with the number of the next alias;
* `Query.statement_wellNamed` is the result, for the rows of a query and for their number.
-/

namespace Crosstab

/-! ## Columns -/

theorem Schema.ids_nodup (s : Schema) : (s.ids.map foldCase).Nodup := by
  simpa [Schema.ids, Function.comp_def] using s.ids_distinct

namespace Sql

/-- A column's id means that column and no other. -/
theorem meansOne_of_mem {s : Schema} {c : Column} (h : c ∈ s.columns) : MeansOne s.ids c.id := by
  have same : ∀ id ∈ s.ids, decide (SameName id c.id) = (id == c.id) := by
    intro id hid
    obtain ⟨d, hd, rfl⟩ := List.mem_map.1 hid
    apply decide_eq_decide.2
    constructor
    · intro e; rw [Schema.eq_of_sameName hd h e]
    · intro e; rw [e]; exact SameName.refl _
  have once : s.ids.count c.id = 1 :=
    List.count_eq_one_of_mem s.ids_nodup.of_map (List.mem_map_of_mem h)
  unfold MeansOne
  rw [List.filter_congr same, List.filter_beq, once]
  rfl

theorem sameName_aliasName {m n : Nat} : SameName (aliasName m) (aliasName n) ↔ m = n :=
  sameName_numbered

/-- The columns of a child that is the only one. -/
theorem resolves_single {s : Schema} {owner : String} {c : Column} (h : c ∈ s.columns) :
    Scope.Resolves [(owner, s.ids)] (none, c.id) :=
  meansOne_of_mem h

section
variable {s r : Schema} {m n : Nat} {c : Column}

theorem resolves_left (distinct : m ≠ n) (h : c ∈ s.columns) :
    Scope.Resolves [(aliasName m, s.ids), (aliasName n, r.ids)] (some (aliasName m), c.id) := by
  refine ⟨(aliasName m, s.ids), ?_, meansOne_of_mem h⟩
  simp [sameName_aliasName, distinct.symm]

theorem resolves_right (distinct : m ≠ n) (h : c ∈ r.columns) :
    Scope.Resolves [(aliasName m, s.ids), (aliasName n, r.ids)] (some (aliasName n), c.id) := by
  refine ⟨(aliasName n, r.ids), ?_, meansOne_of_mem h⟩
  simp [sameName_aliasName, distinct]

end

/-! ## Scalar expressions -/

/-- An expression over the columns of a schema, without aggregates; it has row numbers only if
`ranked` holds. -/
inductive OverColumns (s : Schema) (ranked : Prop) : Expr → Prop where
  | literal (value : Literal) : OverColumns s ranked (.literal value)
  | column {c : Column} (mem : c ∈ s.columns) : OverColumns s ranked (.named c.id)
  | binary {left right : Expr} (op : BinaryOp) (l : OverColumns s ranked left)
      (r : OverColumns s ranked right) : OverColumns s ranked (.binary left op right)
  | not {operand : Expr} (e : OverColumns s ranked operand) : OverColumns s ranked (.not operand)
  | cast {operand : Expr} (type : DataType) (e : OverColumns s ranked operand) :
      OverColumns s ranked (.cast operand type)
  | isNull {operand : Expr} (negated : Bool) (e : OverColumns s ranked operand) :
      OverColumns s ranked (.isNull operand negated)
  | window {keys : List (Expr × Bool)} (function : String) (allowed : ranked)
      (columns : ∀ k ∈ keys, ∃ c ∈ s.columns, k.1 = .named c.id) :
      OverColumns s ranked (.window function [] keys)

theorem mem_innerKeys {keys : List (Expr × Bool)} {e : Expr} :
    e ∈ Expr.innerKeys keys ↔ ∃ k ∈ keys, e ∈ k.1.parts := by
  induction keys with
  | nil => simp [Expr.innerKeys]
  | cons k keys ih =>
    simp only [Expr.innerKeys, Expr.parts, List.mem_cons, List.mem_append, ih, exists_eq_or_imp,
      or_assoc]

namespace OverColumns

variable {s : Schema} {ranked : Prop} {e : Expr}

/-- The keys of a row number have nothing inside them. -/
theorem key_of_mem {keys : List (Expr × Bool)}
    (columns : ∀ k ∈ keys, ∃ c ∈ s.columns, k.1 = .named c.id) (h : e ∈ Expr.innerKeys keys) :
    ∃ c ∈ s.columns, e = .named c.id := by
  obtain ⟨k, hk, hp⟩ := mem_innerKeys.1 h
  obtain ⟨c, hc, he⟩ := columns k hk
  rw [he] at hp
  exact ⟨c, hc, by simpa [Expr.parts, Expr.named, Expr.inner] using hp⟩

/-- Whatever is inside an expression over columns is one itself. -/
theorem inner (h : OverColumns s ranked e) : ∀ i ∈ e.inner, OverColumns s ranked i := by
  induction h with
  | literal | column => simp [Expr.inner, Expr.named]
  | binary op l r ihl ihr =>
    intro i hi
    simp only [Expr.inner, List.mem_cons, List.mem_append] at hi
    obtain rfl | rfl | hi | hi := hi
    · exact l
    · exact r
    · exact ihl i hi
    · exact ihr i hi
  | not e ih | cast _ e ih | isNull _ e ih =>
    intro i hi
    obtain rfl | hi := List.mem_cons.1 hi
    · exact e
    · exact ih i hi
  | window function allowed columns =>
    intro i hi
    simp only [Expr.inner, Expr.innerAll, List.nil_append] at hi
    obtain ⟨c, hc, rfl⟩ := key_of_mem columns hi
    exact .column hc

theorem part (h : OverColumns s ranked e) : ∀ i ∈ e.parts, OverColumns s ranked i :=
  List.forall_mem_cons.2 ⟨h, h.inner⟩

theorem reference (h : OverColumns s ranked e) {r : Option String × String}
    (hr : r ∈ e.references) : ∃ c ∈ s.columns, r = (none, c.id) := by
  obtain ⟨i, hi, hm⟩ := List.mem_filterMap.1 hr
  cases h.part i hi with
  | column hc => exact ⟨_, hc, by simpa [Expr.named, eq_comm] using hm⟩
  | _ => cases hm

theorem not_isAggregate (h : OverColumns s ranked e) : ¬ e.IsAggregate := by
  cases h <;> exact id

/-- Without row numbers, a value depends on its row alone. -/
theorem rowwise (h : OverColumns s False e) : e.Rowwise := by
  rintro i hi (aggregate | window)
  · exact (h.part i hi).not_isAggregate aggregate
  · cases h.part i hi with
    | window _ allowed => exact allowed
    | _ => exact window

/-- Row numbers do not stand inside each other. -/
theorem flat (h : OverColumns s ranked e) :
    ∀ i ∈ e.parts, i.OverRows → ∀ j ∈ i.inner, ¬ j.OverRows := by
  rintro i hi several j hj
  cases h.part i hi with
  | window function allowed columns =>
    simp only [Expr.inner, Expr.innerAll, List.nil_append] at hj
    obtain ⟨c, -, rfl⟩ := key_of_mem columns hj
    rintro (aggregate | window)
    · exact aggregate
    · exact window
  | _ => exact absurd several (by rintro (aggregate | window) <;> assumption)

end OverColumns

theorem OverColumns.mono {s : Schema} {p q : Prop} {e : Expr} (imp : p → q)
    (h : OverColumns s p e) : OverColumns s q e := by
  induction h with
  | literal value => exact .literal value
  | column mem => exact .column mem
  | binary op _ _ l r => exact .binary op l r
  | not _ ih => exact .not ih
  | cast type _ ih => exact .cast type ih
  | isNull negated _ ih => exact .isNull negated ih
  | window function allowed columns => exact .window function (imp allowed) columns

/-- What an operation keeps of two expressions, it keeps of all that it joins. -/
theorem joined_closed {P : Expr → Prop} {op : BinaryOp}
    (binary : ∀ left right, P left → P right → P (.binary left op right)) {operands : List Expr}
    {e : Expr} (each : ∀ e ∈ operands, P e) (h : joined op operands = some e) : P e := by
  cases operands with
  | nil => cases h
  | cons first rest =>
    rw [← Option.some.inj h]
    obtain ⟨hf, hr⟩ := List.forall_mem_cons.1 each
    clear h each
    induction rest generalizing first with
    | nil => exact hf
    | cons next rest ih =>
      obtain ⟨hn, hr⟩ := List.forall_mem_cons.1 hr
      exact ih _ (binary _ _ hf hn) hr

theorem overColumns_combined {s : Schema} {ranked : Prop} {op : Operation} {operands : List Expr}
    {e : Expr} (each : ∀ e ∈ operands, OverColumns s ranked e) (h : combined op operands = .ok e) :
    OverColumns s ranked e := by
  obtain ⟨-, h⟩ | ⟨-, h⟩ | ⟨last, hl, h⟩ | ⟨binary, left, right, -, rfl, rfl⟩ :=
    combined_eq_ok h
  · exact joined_closed (fun _ _ => .binary .and) each h
  · exact joined_closed (fun _ _ => .binary .or) each h
  · have made := each last (List.mem_of_getLast? hl)
    obtain ⟨-, rfl⟩ | ⟨-, rfl⟩ | ⟨-, rfl⟩ := h
    · exact .not made
    · exact .isNull false made
    · exact .isNull true made
  · exact .binary binary (each left (by simp)) (each right (by simp))

theorem mem_of_canonical {s : Schema} {name id : String} (h : canonical s name = .ok id) :
    ∃ c ∈ s.columns, id = c.id := by
  obtain ⟨c, hc, rfl⟩ := canonical_eq_ok h
  exact ⟨c, (Schema.find?_eq_some_iff.1 hc).1, rfl⟩

theorem mem_of_orderKey {s : Schema} {keys : List SortKey} {compiled : List (Expr × Bool)}
    (h : keys.mapM (orderKey s) = .ok compiled) :
    ∀ k ∈ compiled, ∃ c ∈ s.columns, k.1 = .named c.id := by
  have each := mapM_eq_ok_iff.1 h
  clear h
  induction each with
  | nil => simp
  | cons first _ ih =>
    refine List.forall_mem_cons.2 ⟨?_, ih⟩
    obtain ⟨id, hid, hk⟩ := bind_eq_ok_iff.1 first
    obtain ⟨c, hc, rfl⟩ := mem_of_canonical hid
    exact ⟨c, hc, by rw [← pure_eq_ok_iff.1 hk]⟩

mutual

theorem overColumns_sql {s : Schema} {e : Crosstab.Expr} {compiled : Expr}
    (h : e.sql s = .ok compiled) : OverColumns s (e.hasRowNumber = true) compiled := by
  cases e with
  | column name =>
    obtain ⟨id, hid, rfl⟩ := map_eq_ok_iff.1 h
    obtain ⟨c, hc, rfl⟩ := mem_of_canonical hid
    exact .column hc
  | const value type =>
    obtain ⟨literal, -, rfl⟩ := map_eq_ok_iff.1 h
    exact .literal literal
  | combine op operands =>
    obtain ⟨compiledOperands, ho, hc⟩ := bind_eq_ok_iff.1 h
    exact overColumns_combined (overColumns_sqls ho) hc
  | rowNumber keys =>
    obtain ⟨compiledKeys, hk, hc⟩ := bind_eq_ok_iff.1 h
    rw [← pure_eq_ok_iff.1 hc]
    exact .window _ rfl (mem_of_orderKey hk)

theorem overColumns_sqls {s : Schema} {operands : List Crosstab.Expr} {compiled : List Expr}
    (h : Expr.sqls s operands = .ok compiled) :
    ∀ e ∈ compiled, OverColumns s (Expr.anyRowNumber operands = true) e := by
  cases operands with
  | nil => cases h; simp
  | cons first rest =>
    obtain ⟨compiledFirst, hf, h⟩ := bind_eq_ok_iff.1 h
    obtain ⟨compiledRest, hr, h⟩ := bind_eq_ok_iff.1 h
    rw [← pure_eq_ok_iff.1 h]
    refine List.forall_mem_cons.2 ⟨(overColumns_sql hf).mono ?_, fun e he =>
      (overColumns_sqls hr e he).mono ?_⟩
    · intro ranked; simp [Expr.anyRowNumber, ranked]
    · intro ranked; simp [Expr.anyRowNumber, ranked]

end

/-- A SELECT over one child, of expressions over the columns of that child. -/
theorem selectWellNamed_overColumns {s : Schema} {ranked : Prop} (owner : String)
    {columns : List SelectItem} {condition : Option Expr} {keys : List (Expr × Bool)}
    (items : ∀ item ∈ columns, OverColumns s ranked item.expr)
    (rest : ∀ e ∈ condition.toList ++ keys.map (·.1), OverColumns s False e) :
    SelectWellNamed [(owner, s.ids)] columns condition [] keys where
  resolved := by
    intro e he r hr
    have resolves {ranked : Prop} (made : OverColumns s ranked e) :
        Scope.Resolves [(owner, s.ids)] r := by
      obtain ⟨c, hc, rfl⟩ := made.reference hr
      exact resolves_single hc
    simp only [List.append_nil, List.append_assoc, List.mem_append, List.mem_map] at he
    obtain ⟨item, hi, rfl⟩ | he := he
    · exact resolves (items item hi)
    · exact resolves (rest e (by simpa using he))
  rowwise := by
    intro e he
    exact (rest e (by simpa using he)).rowwise
  flat := by
    intro item hi
    exact (items item hi).flat
  collapsed := by
    rintro (none | ⟨item, hi, e, he, aggregate⟩)
    · exact absurd rfl none
    · exact absurd aggregate ((items item hi).part e he).not_isAggregate

/-! ## Aggregates -/

section
variable {func : Aggregate} {column : String} {type : DataType}

theorem reference_aggregateExpr {r : Option String × String}
    (h : r ∈ (aggregateExpr func column type).references) : r = (none, column) := by
  cases func with
  | null =>
    simp [aggregateExpr, Expr.references, Expr.parts, Expr.inner] at h
  | _ =>
    simpa [aggregateExpr, Expr.references, Expr.parts, Expr.inner, Expr.innerAll,
      Expr.innerBranches, Expr.innerElse, Expr.named] using h

theorem flat_aggregateExpr :
    ∀ e ∈ (aggregateExpr func column type).parts, e.OverRows → ∀ i ∈ e.inner, ¬ i.OverRows := by
  cases func <;>
    simp [aggregateExpr, Expr.parts, Expr.inner, Expr.innerAll, Expr.innerBranches, Expr.innerElse,
      Expr.named, Expr.OverRows, Expr.IsAggregate, Expr.IsWindow]

theorem ofGroup_aggregateExpr (groups : List Expr) :
    (aggregateExpr func column type).OfGroup groups := by
  have applied (name : String) : Expr.OfGroup groups (.call name [.named column]) := .call name _
  cases func with
  | sum | avg | count | min | max => exact applied _
  | uniq =>
    refine .case ?_ ?_ ?_
    · simpa using Expr.OfGroup.binary .eq (applied "min") (applied "max")
    · simpa using applied "min"
    · simpa using Expr.OfGroup.literal .null
  | null => exact .cast type (.literal .null)

end

/-- The SELECT of a grouping: the group columns, then the aggregates. -/
theorem selectWellNamed_grouping {s : Schema} (owner : String) {groups : List Expr}
    {rest : List SelectItem} (keys : ∀ e ∈ groups, ∃ c ∈ s.columns, e = .named c.id)
    (aggregates : ∀ item ∈ rest, ∃ func, ∃ c ∈ s.columns,
      item.expr = aggregateExpr func c.id c.type) :
    SelectWellNamed [(owner, s.ids)] (groups.map .plain ++ rest) none groups [] := by
  have made : ∀ e ∈ groups, OverColumns s False e := by
    intro e he
    obtain ⟨c, hc, rfl⟩ := keys e he
    exact .column hc
  have overKey {e : Expr} (he : e ∈ groups) : ∀ r ∈ e.references,
      Scope.Resolves [(owner, s.ids)] r := by
    intro r hr
    obtain ⟨c, hc, rfl⟩ := (made e he).reference hr
    exact resolves_single hc
  refine ⟨?_, ?_, ?_, ?_⟩
  · intro e he r hr
    simp only [List.map_append, List.map_map, Option.toList_none, List.append_nil, List.map_nil,
      List.mem_append, List.mem_map, Function.comp_def, SelectItem.plain] at he
    obtain (⟨_, he, rfl⟩ | ⟨item, hi, rfl⟩) | he := he
    · exact overKey he r hr
    · obtain ⟨func, c, hc, hx⟩ := aggregates item hi
      rw [hx] at hr
      rw [reference_aggregateExpr hr]
      exact resolves_single hc
    · exact overKey he r hr
  · intro e he
    exact (made e (by simpa using he)).rowwise
  · intro item hi
    obtain hi | hi := List.mem_append.1 hi
    · obtain ⟨e, he, rfl⟩ := List.mem_map.1 hi
      exact (made e he).flat
    · obtain ⟨func, c, -, hx⟩ := aggregates item hi
      rw [hx]
      exact flat_aggregateExpr
  · intro _ item hi
    obtain hi | hi := List.mem_append.1 hi
    · obtain ⟨e, he, rfl⟩ := List.mem_map.1 hi
      exact .key he
    · obtain ⟨func, c, -, hx⟩ := aggregates item hi
      rw [hx]
      exact ofGroup_aggregateExpr groups

/-- The SELECT that counts rows. -/
theorem selectWellNamed_count (scope : Scope) :
    SelectWellNamed scope [⟨.call "count" [.star], some "rowCount"⟩] none [] [] := by
  refine ⟨?_, by simp, ?_, ?_⟩
  · simp [Expr.references, Expr.parts, Expr.inner, Expr.innerAll]
  · simp [Expr.parts, Expr.inner, Expr.innerAll, Expr.OverRows, Expr.IsAggregate, Expr.IsWindow]
  · intro _ item hi
    rw [List.mem_singleton.1 hi]
    exact .call _ _

/-! ## Joins -/

theorem rowwise_qualified (owner name : String) : (Expr.qualified owner name).Rowwise := by
  simp [Expr.Rowwise, Expr.parts, Expr.qualified, Expr.inner, Expr.OverRows, Expr.IsAggregate,
    Expr.IsWindow]

theorem mem_parts_binary {left right e : Expr} {op : BinaryOp} :
    e ∈ (Expr.binary left op right).parts ↔
      e = .binary left op right ∨ e ∈ left.parts ∨ e ∈ right.parts := by
  simp only [Expr.parts, Expr.inner, List.mem_cons, List.mem_append]
  tauto

theorem rowwise_binary {left right : Expr} (op : BinaryOp) (l : left.Rowwise) (r : right.Rowwise) :
    (Expr.binary left op right).Rowwise := by
  intro e he
  obtain rfl | he | he := mem_parts_binary.1 he
  · rintro (aggregate | window)
    · exact aggregate
    · exact window
  · exact l e he
  · exact r e he

theorem mem_references_binary {left right : Expr} {op : BinaryOp} {ref : Option String × String} :
    ref ∈ (Expr.binary left op right).references ↔
      ref ∈ left.references ∨ ref ∈ right.references := by
  simp only [Expr.references, List.mem_filterMap, mem_parts_binary, or_and_right, exists_or,
    exists_eq_left, reduceCtorEq, false_or]

section
variable {s r t : Schema} {keys : List String} {m n : Nat}

/-- The select list of a join: each column comes from the side it is on. -/
theorem selectWellNamed_join (derived : s.join r keys = .ok t) (distinct : m ≠ n)
    {items : List SelectItem}
    (h : t.columns.mapM (joinItem s (aliasName m) (aliasName n)) = .ok items) :
    SelectWellNamed [(aliasName m, s.ids), (aliasName n, r.ids)] items none [] [] := by
  have shown : ∀ item ∈ items, ∃ c ∈ t.columns, item =
      .plain (.qualified (if s.has c.id then aliasName m else aliasName n) c.id) := by
    rw [joinItems_eq h]
    intro item hi
    obtain ⟨c, hc, rfl⟩ := List.mem_map.1 hi
    exact ⟨c, hc, rfl⟩
  have rowwise : ∀ item ∈ items, item.expr.Rowwise := by
    intro item hi
    obtain ⟨c, -, rfl⟩ := shown item hi
    exact rowwise_qualified _ _
  refine ⟨?_, by simp, ?_, ?_⟩
  · intro e he ref href
    obtain ⟨item, hi, rfl⟩ := List.mem_map.1 (by simpa using he)
    obtain ⟨c, hc, rfl⟩ := shown item hi
    have shows : ref = (some (if s.has c.id then aliasName m else aliasName n), c.id) := by
      simpa [Expr.references, Expr.parts, Expr.inner, SelectItem.plain, Expr.qualified] using href
    rw [shows]
    by_cases has : s.has c.id = true
    · rw [if_pos has]
      exact resolves_left distinct (Schema.mem_left_of_has derived hc has)
    · rw [if_neg has]
      exact resolves_right distinct
        (Schema.mem_right_of_not_has derived hc (Bool.not_eq_true _ ▸ has))
  · intro item hi e he several
    exact absurd several (rowwise item hi e he)
  · rintro (none | ⟨item, hi, e, he, aggregate⟩)
    · exact absurd rfl none
    · exact absurd (.inl aggregate) (rowwise item hi e he)

/-- The condition of a join compares columns of the two sides. -/
theorem joinCondition_wellNamed (derived : s.join r keys = .ok t) (distinct : m ≠ n)
    {nullSafe : Bool} {condition : Expr}
    (h : joinCondition s r (aliasName m) (aliasName n) nullSafe keys = .ok condition) :
    (∀ ref ∈ condition.references,
      Scope.Resolves [(aliasName m, s.ids), (aliasName n, r.ids)] ref) ∧ condition.Rowwise := by
  refine joined_closed (P := fun e => (∀ ref ∈ e.references, Scope.Resolves _ ref) ∧ e.Rowwise)
    ?_ ?_ (joinCondition_eq h)
  · rintro left right ⟨lr, lw⟩ ⟨rr, rw⟩
    refine ⟨fun ref href => ?_, rowwise_binary _ lw rw⟩
    exact (mem_references_binary.1 href).elim (lr ref) (rr ref)
  · intro e he
    obtain ⟨key, hk, rfl⟩ := List.mem_map.1 he
    obtain ⟨c, d, hc, hd, -⟩ := Schema.key_of_join derived hk
    refine ⟨fun ref href => ?_, rowwise_binary _ (rowwise_qualified _ _) (rowwise_qualified _ _)⟩
    rw [keyComparison, idOf_eq hc, idOf_eq hd, mem_references_binary] at href
    simp only [Expr.references, Expr.parts, Expr.inner, Expr.qualified, List.filterMap_cons,
      List.filterMap_nil, List.mem_singleton] at href
    obtain rfl | rfl := href
    · exact resolves_left distinct (Schema.find?_eq_some_iff.1 hc).1
    · exact resolves_right distinct (Schema.find?_eq_some_iff.1 hd).1

end

end Sql

/-! ## Plans -/

namespace Plan

open Sql

def aliasNames (next count : Nat) : List String := (List.range' next count).map aliasName

theorem aliasNames_succ (next count : Nat) :
    aliasNames next (count + 1) = aliasName next :: aliasNames (next + 1) count := rfl

theorem aliasNames_append (next a b : Nat) :
    aliasNames next a ++ aliasNames (next + a) b = aliasNames next (a + b) := by
  rw [aliasNames, aliasNames, aliasNames, ← List.map_append, List.range'_append_1]

/-- What holds of the statement of a plan whose first alias has the number `next`. -/
structure Compiled {s : Schema} (p : Plan s) (next : Nat) (st : Statement) : Prop where
  names : st.names = s.ids
  wellNamed : st.WellNamed p.tables
  aliases : st.aliases = aliasNames next p.aliasCount

/-- What holds of the table or subquery that a plan becomes, under the alias `number`. -/
structure Drawn {s : Schema} (p : Plan s) (number : Nat) (ref : TableRef) : Prop where
  owner : ref.owner = aliasName number
  wellNamed : ref.WellNamed p.tables s.ids
  aliases : ref.aliases = aliasNames number (p.aliasCount + 1)

theorem DrawsFrom.drawn {s : Schema} {p : Plan s} {number : Nat} {ref : TableRef}
    (h : p.DrawsFrom number ref)
    (inside : ∀ st, p.statement (number + 1) = .ok st → p.Compiled (number + 1) st) :
    p.Drawn number ref := by
  cases h with
  | @table name s => exact { owner := rfl, wellNamed := .table name _ _, aliases := rfl }
  | statement hs =>
    have compiled := inside _ hs
    exact {
      owner := rfl
      wellNamed := compiled.names ▸ .subquery _ compiled.wellNamed
      aliases := by rw [TableRef.aliases, compiled.aliases, aliasNames_succ] }

/-- A SELECT over one child. -/
theorem compiled_select {s t : Schema} {source : Plan s} {p : Plan t} {next : Nat} {ref : TableRef}
    (drawn : source.Drawn next ref) {columns : List SelectItem} {condition : Option Sql.Expr}
    {groups : List Sql.Expr} {keys : List (Sql.Expr × Bool)}
    (names : columns.map SelectItem.name = t.ids)
    (clauses : SelectWellNamed [(aliasName next, s.ids)] columns condition groups keys)
    (tables : p.tables = source.tables) (count : p.aliasCount = source.aliasCount + 1) :
    p.Compiled next (.select columns (.item ref) condition groups keys) where
  names := names
  wellNamed := by
    have item := Source.WellNamed.item drawn.wellNamed
    rw [drawn.owner] at item
    rw [tables]
    exact .select item clauses
  aliases := by rw [count]; exact drawn.aliases

theorem names_shown (s : Schema) : (shown s).map SelectItem.name = s.ids := by
  rw [shown, List.map_map]
  rfl

theorem overColumns_shown {s t : Schema} (sub : ∀ c ∈ t.columns, c ∈ s.columns) :
    ∀ item ∈ shown t, OverColumns s False item.expr := by
  intro item hi
  obtain ⟨c, hc, rfl⟩ := List.mem_map.1 hi
  exact .column (sub c hc)

/-- The clauses of a grouping. -/
theorem grouping_select {s t : Schema} {columns : List String} {aggregates : List AggregateColumn}
    (derived : s.groupBy columns aggregates = .ok t) {groups : List Sql.Expr}
    {rest : List SelectItem} (hg : groupColumns s columns = .ok groups)
    (hr : aggregates.mapM (aggregateItem s) = .ok rest) :
    (groups.map SelectItem.plain ++ rest).map SelectItem.name = t.ids ∧
      (∀ e ∈ groups, ∃ c ∈ s.columns, e = .named c.id) ∧
      ∀ item ∈ rest, ∃ func, ∃ c ∈ s.columns, item.expr = aggregateExpr func c.id c.type := by
  obtain ⟨-, keys, others, ht, hk, ho⟩ := Schema.groupBy_eq_ok_iff.1 derived
  have grouped : groups = keys.map fun c => Sql.Expr.named c.id := by
    rw [groupColumns_eq hg]
    exact map_eq_map_of_forall₂ hk fun name c hc => by rw [idOf_eq hc]
  have restNames : rest.map SelectItem.name = others.map (·.id) := by
    have ofItems : aggregates.map (fun a => idOf s a.column) = rest.map SelectItem.name := by
      refine map_eq_map_of_forall₂ (mapM_eq_ok_iff.1 hr) fun a item hi => ?_
      obtain ⟨c, hc, rfl⟩ := aggregateItem_eq_ok hi
      exact idOf_eq hc
    rw [← ofItems]
    refine map_eq_map_of_forall₂ ho fun a c hc => ?_
    obtain ⟨input, type, hi, -, rfl⟩ := Schema.aggregated_eq_ok_iff.1 hc
    exact idOf_eq (c := input) hi
  refine ⟨?_, ?_, ?_⟩
  · rw [List.map_append, restNames, grouped, Schema.ids, ht, List.map_append, List.map_map,
      List.map_map]
    rfl
  · rw [grouped]
    intro e he
    obtain ⟨c, hc, rfl⟩ := List.mem_map.1 he
    exact ⟨c, Schema.mem_of_found hk c hc, rfl⟩
  · intro item hi
    obtain ⟨a, -, ha⟩ := exists_of_mem_right (mapM_eq_ok_iff.1 hr) hi
    obtain ⟨c, hc, rfl⟩ := aggregateItem_eq_ok ha
    exact ⟨_, c, (Schema.find?_eq_some_iff.1 hc).1, rfl⟩

/-- The select list of a plan with one more column. -/
theorem extended_select {s t : Schema} {column : String} {type : DataType} {value : Expr}
    (derived : s.extend column type value = .ok t) {compiled : Sql.Expr}
    (hv : value.sql s = .ok compiled) :
    let items := shown s ++ [⟨derivedExpr s type value compiled, some column⟩]
    items.map SelectItem.name = t.ids ∧ ∀ item ∈ items, OverColumns s True item.expr := by
  obtain ⟨-, actual, -, -, columns⟩ := Schema.extend_eq_ok_iff.1 derived
  intro items
  constructor
  · rw [List.map_append, names_shown, Schema.ids, Schema.ids, columns, List.map_append]
    rfl
  · have made : OverColumns s True (derivedExpr s type value compiled) := by
      have plain := (overColumns_sql hv).mono fun _ => trivial
      unfold derivedExpr
      split
      · exact plain
      · exact .cast type plain
    intro item hi
    obtain hi | hi := List.mem_append.1 hi
    · exact (overColumns_shown (fun _ hc => hc) item hi).mono False.elim
    · rw [List.mem_singleton.1 hi]
      exact made

/-- Renamed columns show the old columns under the new ids. -/
theorem renamed_select {s t : Schema} (types : t.columns.map (·.type) = s.columns.map (·.type))
    {items : List SelectItem}
    (h : (s.columns.zip t.columns).mapM (fun (old, new) => renamedItem old new) = .ok items) :
    items.map SelectItem.name = t.ids ∧ items.map (·.expr) = (shown s).map (·.expr) := by
  have len : t.columns.length = s.columns.length := by simpa using congrArg List.length types
  have all : items = (s.columns.zip t.columns).map fun pair =>
      ⟨.named pair.1.id, if pair.1.id = pair.2.id then none else some pair.2.id⟩ :=
    eq_map_of_mapM h fun _ _ _ => renamedItem_eq_ok
  rw [all, List.map_map, List.map_map]
  constructor
  · have name (pair : Column × Column) : SelectItem.name
        ⟨.named pair.1.id, if pair.1.id = pair.2.id then none else some pair.2.id⟩ = pair.2.id := by
      by_cases same : pair.1.id = pair.2.id
      · rw [if_pos same]; exact same
      · rw [if_neg same]; rfl
    have ids : t.ids = (s.columns.zip t.columns).map fun pair => pair.2.id := by
      conv_lhs => rw [Schema.ids, ← List.map_snd_zip (Nat.le_of_eq len), List.map_map]
      rfl
    rw [ids]
    exact List.map_congr_left fun pair _ => name pair
  · conv_rhs => rw [shown, ← List.map_fst_zip (Nat.le_of_eq len.symm), List.map_map, List.map_map]
    rfl

/-- Items that show the columns of a schema are expressions over its columns. -/
theorem overColumns_of_exprs {s : Schema} {items : List SelectItem}
    (h : items.map (·.expr) = (shown s).map (·.expr)) :
    ∀ item ∈ items, OverColumns s False item.expr := by
  intro item hi
  have mem : item.expr ∈ (shown s).map (·.expr) := h ▸ List.mem_map_of_mem hi
  obtain ⟨other, ho, he⟩ := List.mem_map.1 mem
  rw [← he]
  exact overColumns_shown (fun _ hc => hc) other ho

/-- The aliases of two children, the second numbered after the first. -/
theorem aliases_pair {s r : Schema} {left : Plan s} {right : Plan r} {next : Nat}
    {leftRef rightRef : TableRef} (drawnLeft : left.Drawn next leftRef)
    (drawnRight : right.Drawn (next + 1 + left.aliasCount) rightRef) :
    leftRef.aliases ++ rightRef.aliases =
      aliasNames next (left.aliasCount + right.aliasCount + 2) := by
  have second : next + 1 + left.aliasCount = next + (left.aliasCount + 1) := by omega
  have count : left.aliasCount + right.aliasCount + 2 =
      left.aliasCount + 1 + (right.aliasCount + 1) := by omega
  rw [drawnLeft.aliases, drawnRight.aliases, second, aliasNames_append, count]

/-- The statement that appends the rows of two children. -/
theorem compiled_union {s r t : Schema} {left : Plan s} {right : Plan r} {next : Nat}
    (derived : s.concat r = .ok t) {leftRef rightRef : TableRef}
    (drawnLeft : left.Drawn next leftRef)
    (drawnRight : right.Drawn (next + 1 + left.aliasCount) rightRef) :
    (concat left right derived).Compiled next
      (.union true (.plain (shown s) leftRef) (.plain (shown r) rightRef)) := by
  obtain ⟨len, each⟩ := Schema.concat_eq_ok_iff.1 derived
  have arm {s : Schema} {p : Plan s} {n : Nat} {ref : TableRef} (drawn : p.Drawn n ref) :
      (Statement.plain (shown s) ref).WellNamed p.tables :=
    .select (.item drawn.wellNamed)
      (selectWellNamed_overColumns _ (overColumns_shown fun _ hc => hc) (by simp))
  have ids : s.ids = t.ids := by
    have zipped : (s.columns.zip r.columns).map (·.1.id) = t.columns.map (·.id) := by
      refine map_eq_map_of_forall₂ each fun pair c hc => ?_
      obtain ⟨-, type, -, rfl⟩ := Schema.concatColumn_eq_ok_iff.1 hc
      rfl
    rw [Schema.ids, Schema.ids, ← zipped]
    conv_lhs => rw [← List.map_fst_zip (Nat.le_of_eq len), List.map_map]
    rfl
  have same : List.Forall₂ SameName s.ids r.ids := by
    rw [Schema.ids, Schema.ids, List.forall₂_map_left_iff, List.forall₂_map_right_iff,
      List.forall₂_iff_zip]
    refine ⟨len, fun {a b} hp => ?_⟩
    obtain ⟨c, -, hc⟩ := exists_of_mem_left each hp
    exact (Schema.concatColumn_eq_ok_iff.1 hc).1
  exact {
    names := (names_shown s).trans ids
    wellNamed := .union true (arm drawnLeft) (arm drawnRight) (by
      show List.Forall₂ SameName ((shown s).map SelectItem.name) ((shown r).map SelectItem.name)
      rwa [names_shown, names_shown])
    aliases := aliases_pair drawnLeft drawnRight }

/-- The statement that pairs the rows of two children. -/
theorem compiled_join {s r t : Schema} {left : Plan s} {right : Plan r} {keys : List String}
    {kind : JoinKind} {nullSafe : Bool} {next : Nat} (derived : s.join r keys = .ok t)
    {leftRef rightRef : TableRef} (drawnLeft : left.Drawn next leftRef)
    (drawnRight : right.Drawn (next + 1 + left.aliasCount) rightRef) {items : List SelectItem}
    {condition : Sql.Expr}
    (hi : t.columns.mapM (joinItem s leftRef.owner rightRef.owner) = .ok items)
    (hc : joinCondition s r leftRef.owner rightRef.owner nullSafe keys = .ok condition) :
    (join left right keys kind nullSafe derived).Compiled next
      (.select items (.join (.item leftRef) kind rightRef condition) none [] []) := by
  rw [drawnLeft.owner, drawnRight.owner] at hi hc
  have distinct : next ≠ next + 1 + left.aliasCount := by omega
  have ⟨resolved, rowwise⟩ := joinCondition_wellNamed derived distinct hc
  have leftItem := Source.WellNamed.item drawnLeft.wellNamed
  rw [drawnLeft.owner] at leftItem
  have source : Source.WellNamed (left.tables ++ right.tables)
      (.join (.item leftRef) kind rightRef condition)
      [(aliasName next, s.ids), (aliasName (next + 1 + left.aliasCount), r.ids)] :=
    drawnRight.owner ▸
      .join kind leftItem drawnRight.wellNamed (drawnRight.owner ▸ resolved) rowwise
  exact {
    names := by
      show items.map SelectItem.name = t.ids
      rw [joinItems_eq hi, List.map_map]
      rfl
    wellNamed := .select source (selectWellNamed_join derived distinct hi)
    aliases := aliases_pair drawnLeft drawnRight }

/-- Conditions rank no rows. -/
theorem overColumns_predicate {s : Schema} {predicate : Expr} {condition : Sql.Expr}
    (checked : s.checkPredicate predicate = .ok ()) (h : predicate.sql s = .ok condition) :
    OverColumns s False condition := by
  have unranked := (Schema.checkPredicate_eq_ok_iff.1 checked).1
  exact (overColumns_sql h).mono (by simp [unranked])

theorem statement_compiled {s : Schema} (p : Plan s) (next : Nat) (st : Statement)
    (h : p.statement next = .ok st) : p.Compiled next st := by
  -- The number varies: the aliases of a right child come after those of the left one.
  induction p generalizing next st with
  | table name s named =>
    cases emits_of_statement h
    exact {
      names := names_shown s
      wellNamed := .select (.item (.table name none s.ids))
        (selectWellNamed_overColumns _ (overColumns_shown fun _ hc => hc) (by simp))
      aliases := rfl }
  | @project s t source columns derived ih =>
    have .project child := emits_of_statement h
    have sub := Schema.mem_of_found (Schema.project_eq_ok_iff.1 derived).2
    exact compiled_select (child.drawn (ih _)) (names_shown t)
      (selectWellNamed_overColumns _ (overColumns_shown sub) (by simp)) rfl rfl
  | @filter s source predicate checked ih =>
    have .filter child compiled := emits_of_statement h
    have plain := overColumns_predicate checked compiled
    exact compiled_select (child.drawn (ih _)) (names_shown s)
      (selectWellNamed_overColumns _ (overColumns_shown fun _ hc => hc) (by simpa using plain)) rfl
      rfl
  | @groupBy s t source columns aggregates derived ih =>
    have .groupBy child grouped aggregated := emits_of_statement h
    obtain ⟨names, each⟩ := grouping_select derived grouped aggregated
    exact compiled_select (child.drawn (ih _)) names (selectWellNamed_grouping _ each.1 each.2) rfl
      rfl
  | @sort s source keys checked ih =>
    have .sort child ordered := emits_of_statement h
    refine compiled_select (child.drawn (ih _)) (names_shown s)
      (selectWellNamed_overColumns _ (overColumns_shown fun _ hc => hc) ?_) rfl rfl
    intro e he
    rw [Option.toList_none, List.nil_append] at he
    obtain ⟨k, hk, rfl⟩ := List.mem_map.1 he
    obtain ⟨c, hc, hx⟩ := mem_of_orderKey ordered k hk
    exact hx ▸ .column hc
  | @extend s t source column type value derived ih =>
    have .extend child valued := emits_of_statement h
    obtain ⟨names, made⟩ := extended_select derived valued
    exact compiled_select (child.drawn (ih _)) names (selectWellNamed_overColumns _ made (by simp))
      rfl rfl
  | @mapColumns s t source mapping derived ih =>
    have .mapColumns child renamed := emits_of_statement h
    obtain ⟨names, exprs⟩ := renamed_select (Schema.types_of_mapColumns derived) renamed
    exact compiled_select (child.drawn (ih _)) names
      (selectWellNamed_overColumns _ (overColumns_of_exprs exprs) (by simp)) rfl rfl
  | @mapColumnsAt s t source mapping derived ih =>
    have .mapColumnsAt child renamed := emits_of_statement h
    obtain ⟨names, exprs⟩ := renamed_select (Schema.types_of_mapColumnsAt derived) renamed
    exact compiled_select (child.drawn (ih _)) names
      (selectWellNamed_overColumns _ (overColumns_of_exprs exprs) (by simp)) rfl rfl
  | @concat s r t left right derived ihl ihr =>
    have .concat leftChild rightChild := emits_of_statement h
    exact compiled_union derived (leftChild.drawn (ihl _)) (rightChild.drawn (ihr _))
  | @join s r t left right keys kind nullSafe derived ihl ihr =>
    have .join leftChild rightChild paired compiled := emits_of_statement h
    exact compiled_join derived (leftChild.drawn (ihl _)) (rightChild.drawn (ihr _)) paired compiled

theorem distinct_aliasNames (next count : Nat) :
    ((aliasNames next count).map foldCase).Nodup := by
  rw [aliasNames, List.map_map]
  refine List.Nodup.map ?_ List.nodup_range'
  intro m n same
  exact sameName_aliasName.1 same

end Plan

/-- The statement of a query has the query's columns, all its names mean one thing each, and its
aliases differ; so it is with the statement for the number of rows. -/
theorem Query.statement_wellNamed (q : Query) :
    (∀ st, q.statement = .ok st →
      st.names = q.schema.ids ∧ st.WellNamed q.plan.tables ∧ st.DistinctAliases) ∧
    ∀ st, q.countStatement = .ok st →
      st.names = ["rowCount"] ∧ st.WellNamed q.plan.tables ∧ st.DistinctAliases := by
  constructor
  · intro st h
    have compiled := q.plan.statement_compiled 0 st h
    refine ⟨compiled.names, compiled.wellNamed, ?_⟩
    rw [Sql.Statement.DistinctAliases, compiled.aliases]
    exact Plan.distinct_aliasNames _ _
  · intro st h
    obtain ⟨rows, hr, h⟩ := bind_eq_ok_iff.1 h
    have compiled := q.plan.statement_compiled 0 rows hr
    rw [← pure_eq_ok_iff.1 h]
    refine ⟨rfl, .select (.item (.subquery _ compiled.wellNamed)) (Sql.selectWellNamed_count _), ?_⟩
    have aliases : (Sql.aliasName q.plan.aliasCount :: rows.aliases).Perm
        (Plan.aliasNames 0 (q.plan.aliasCount + 1)) := by
      have last : Plan.aliasNames (0 + q.plan.aliasCount) 1 =
          [Sql.aliasName q.plan.aliasCount] := by rw [Nat.zero_add]; rfl
      rw [compiled.aliases, ← Plan.aliasNames_append, last]
      exact (List.perm_append_singleton _ _).symm
    exact (aliases.map foldCase).nodup_iff.2 (Plan.distinct_aliasNames _ _)

/-- The regions of a table of sales by rank of their common amount, beside the sales of at least
two. -/
def rankedSales : Except Error Query := do
  let columns := [⟨"Region", .text, "Region"⟩, ⟨"amount", .integer, "Amount"⟩]
  let sales ← (Query.table "sales" ⟨columns, by decide, by decide⟩).mapError .build
  let totals ← (sales.groupBy ["region"] [⟨.uniq, "amount"⟩]).mapError .build
  let ranked ← totals.extend "rank" .integer (.rowNumber [.asc "AMOUNT"])
  let large ← sales.filter (.combine .ge [.column "Amount", .const (.int 2) .integer])
  let renamed ← (large.mapColumnsAt ⟨[(1, ⟨some "value", none⟩)], by decide⟩).mapError .build
  (ranked.join renamed ["REGION"] .left true).mapError .build

theorem statement_wellNamed_rankedSales : ∃ q, rankedSales = .ok q ∧
    (∃ st, q.statement = .ok st ∧
      st.names = q.schema.ids ∧ st.WellNamed q.plan.tables ∧ st.DistinctAliases) ∧
    ∃ st, q.countStatement = .ok st ∧
      st.names = ["rowCount"] ∧ st.WellNamed q.plan.tables ∧ st.DistinctAliases := by
  obtain ⟨q, hq, rows, hr, count, hc⟩ : ∃ q, rankedSales = .ok q ∧
      ∃ rows, q.statement = .ok rows ∧ ∃ count, q.countStatement = .ok count :=
    ⟨_, rfl, _, rfl, _, rfl⟩
  obtain ⟨ofRows, ofCount⟩ := Query.statement_wellNamed q
  exact ⟨q, hq, ⟨rows, hr, ofRows rows hr⟩, count, hc, ofCount count hc⟩

end Crosstab
