import Crosstab.Proofs.Double.Range
import Crosstab.Proofs.Sql.Statements
import Crosstab.Proofs.Sql.WellNamed

/-!
# SQL is unambiguous

Two queries have the same SQL only if their statements are the same up to truth values, whatever
quotes, parentheses or keywords their names and constants contain.

* `Sql.Statement.Readable` are statements whose text is read back, as their expressions are;
* `Plan.readable_of_statement`: compiled statements are readable, by induction over the operators;
* `Query.sql_eq_iff` is the result.
-/

namespace Crosstab.Sql

/-! ## Compiled expressions -/

theorem readable_named (id : String) : (Expr.named id).Readable := .column none id

theorem readable_qualified (owner id : String) : (Expr.qualified owner id).Readable :=
  .column (some owner) id

theorem isFinite_of_constant {value : Scalar} {type : DataType} {literal : Literal}
    (h : constant value type = .ok literal) : literal.IsFinite := by
  cases value with
  | null | bool => cases h; trivial
  | int i =>
    have small : i.toInt.natAbs ≤ pow2 64 := by
      have low := i.le_toInt
      have high := i.toInt_lt
      have size : pow2 64 = 2 ^ 64 := rfl
      omega
    cases h
    split
    · exact Double.isFinite_ofInt small
    · trivial
  | real v =>
    simp only [constant] at h
    split at h
    · next finite => cases h; exact finite
    · cases h
  | text s =>
    simp only [constant] at h
    split at h
    · cases h
    · cases h; trivial

theorem readable_combined {op : Operation} {operands : List Expr} {e : Expr}
    (each : ∀ e ∈ operands, e.Readable) (h : combined op operands = .ok e) : e.Readable := by
  obtain ⟨-, h⟩ | ⟨-, h⟩ | ⟨last, hl, h⟩ | ⟨binary, left, right, hb, rfl, rfl⟩ := combined_eq_ok h
  · exact joined_closed (fun _ _ l r => .binary l r nofun) each h
  · exact joined_closed (fun _ _ l r => .binary l r nofun) each h
  · have made := each last (List.mem_of_getLast? hl)
    obtain ⟨-, rfl⟩ | ⟨-, rfl⟩ | ⟨-, rfl⟩ := h
    · exact .not made
    · exact .isNull made false
    · exact .isNull made true
  · refine .binary (each left (by simp)) (each right (by simp)) ?_
    rintro rfl
    cases op <;> cases hb

theorem readable_orderKeys {s : Schema} {keys : List SortKey} {compiled : List (Expr × Bool)}
    (h : keys.mapM (orderKey s) = .ok compiled) : ∀ k ∈ compiled, k.1.Readable := by
  intro k hk
  obtain ⟨c, -, column⟩ := mem_of_orderKey h k hk
  rw [column]
  exact readable_named c.id

mutual

theorem readable_sql {s : Schema} {e : Crosstab.Expr} {compiled : Expr}
    (h : e.sql s = .ok compiled) : compiled.Readable := by
  cases e with
  | column name =>
    obtain ⟨id, -, rfl⟩ := map_eq_ok_iff.1 h
    exact readable_named id
  | const value type =>
    obtain ⟨literal, made, rfl⟩ := map_eq_ok_iff.1 h
    exact .literal (isFinite_of_constant made)
  | combine op operands =>
    obtain ⟨compiledOperands, ho, hc⟩ := bind_eq_ok_iff.1 h
    exact readable_combined (readable_sqls ho) hc
  | rowNumber keys =>
    obtain ⟨compiledKeys, hk, hc⟩ := bind_eq_ok_iff.1 h
    rw [← pure_eq_ok_iff.1 hc]
    exact .window (by decide) nofun (readable_orderKeys hk)

theorem readable_sqls {s : Schema} {operands : List Crosstab.Expr} {compiled : List Expr}
    (h : Expr.sqls s operands = .ok compiled) : ∀ e ∈ compiled, e.Readable := by
  cases operands with
  | nil => cases h; exact nofun
  | cons first rest =>
    obtain ⟨compiledFirst, hf, h⟩ := bind_eq_ok_iff.1 h
    obtain ⟨compiledRest, hr, h⟩ := bind_eq_ok_iff.1 h
    rw [← pure_eq_ok_iff.1 h]
    exact List.forall_mem_cons.2 ⟨readable_sql hf, readable_sqls hr⟩

end

theorem readable_aggregateExpr (func : Aggregate) (column : String) (type : DataType) :
    (aggregateExpr func column type).Readable := by
  have applied (function : String) (word : IsWord function) :
      (Expr.call function [.named column]).Readable :=
    .call word (by simpa using readable_named column)
  have nothing : (Expr.literal .null).Readable := .literal trivial
  cases func with
  | sum | avg | count | min | max => exact applied _ (by decide)
  | uniq =>
    have least := applied "min" (by decide)
    have greatest := applied "max" (by decide)
    have agree : (Expr.binary (.call "min" [.named column]) .eq
        (.call "max" [.named column])).Readable := .binary least greatest nofun
    exact .case (by simpa using agree) (by simpa using least) (by simpa using nothing)
  | null => exact .cast nothing type

theorem readable_derivedExpr {s : Schema} {type : DataType} {value : Crosstab.Expr}
    {compiled : Expr} (h : value.sql s = .ok compiled) :
    (Plan.derivedExpr s type value compiled).Readable := by
  unfold Plan.derivedExpr
  split
  · exact readable_sql h
  · exact .cast (readable_sql h) type

theorem readable_joinCondition {s r : Schema} {left right : String} {nullSafe : Bool}
    {keys : List String} {condition : Expr}
    (h : joinCondition s r left right nullSafe keys = .ok condition) : condition.Readable := by
  refine joined_closed (fun _ _ l r => .binary l r nofun) ?_ (joinCondition_eq h)
  intro e he
  obtain ⟨key, -, rfl⟩ := List.mem_map.1 he
  exact .binary (readable_qualified ..) (readable_qualified ..) fun _ => ⟨_, _, rfl⟩

theorem readable_shown (s : Schema) : ∀ item ∈ shown s, item.expr.Readable := by
  intro item hi
  obtain ⟨c, -, rfl⟩ := List.mem_map.1 hi
  exact readable_named c.id

theorem readable_grouping {s : Schema} {columns : List String}
    {aggregates : List AggregateColumn} {groups : List Expr} {rest : List SelectItem}
    (grouped : groupColumns s columns = .ok groups)
    (aggregated : aggregates.mapM (aggregateItem s) = .ok rest) :
    (∀ e ∈ groups, e.Readable) ∧
      ∀ item ∈ groups.map SelectItem.plain ++ rest, item.expr.Readable := by
  have keys : ∀ e ∈ groups, e.Readable := by
    rw [groupColumns_eq grouped]
    exact List.forall_mem_map.2 fun name _ => readable_named _
  refine ⟨keys, List.forall_mem_append.2 ⟨List.forall_mem_map.2 keys, fun item hi => ?_⟩⟩
  obtain ⟨a, -, made⟩ := exists_of_mem_right (mapM_eq_ok_iff.1 aggregated) hi
  obtain ⟨c, -, rfl⟩ := aggregateItem_eq_ok made
  exact readable_aggregateExpr ..

theorem readable_joined {s : Schema} {left right : String} {columns : List Column}
    {items : List SelectItem} (h : columns.mapM (joinItem s left right) = .ok items) :
    ∀ item ∈ items, item.expr.Readable := by
  rw [joinItems_eq h]
  exact List.forall_mem_map.2 fun c _ => readable_qualified ..

theorem readable_renamed {s t : Schema} {items : List SelectItem}
    (h : (s.columns.zip t.columns).mapM (fun (old, new) => renamedItem old new) = .ok items) :
    ∀ item ∈ items, item.expr.Readable := by
  intro item hi
  obtain ⟨pair, -, made⟩ := exists_of_mem_right (mapM_eq_ok_iff.1 h) hi
  rw [renamedItem_eq_ok made]
  exact readable_named _

/-! ## Readable statements -/

def TableRef.query? : TableRef → Option Statement
  | .table .. => none
  | .subquery query _ => some query

/-- The expressions in the clauses of a SELECT are readable. -/
structure ReadableClauses (columns : List SelectItem) (condition : Option Expr)
    (groups : List Expr) (keys : List (Expr × Bool)) : Prop where
  items : ∀ item ∈ columns, item.expr.Readable
  condition : ∀ e ∈ condition, e.Readable
  groups : ∀ e ∈ groups, e.Readable
  keys : ∀ k ∈ keys, k.1.Readable

/-- A statement of the form that queries are written in, with readable expressions throughout. -/
inductive Statement.Readable : Statement → Prop where
  | select {columns : List SelectItem} {table : TableRef} {condition : Option Expr}
      {groups : List Expr} {keys : List (Expr × Bool)}
      (drawn : ∀ query ∈ table.query?, Statement.Readable query)
      (clauses : ReadableClauses columns condition groups keys) :
      Statement.Readable (.select columns (.item table) condition groups keys)
  | join {columns : List SelectItem} {left right : TableRef} {condition : Expr}
      (drawnLeft : ∀ query ∈ left.query?, Statement.Readable query) (kind : JoinKind)
      (drawnRight : ∀ query ∈ right.query?, Statement.Readable query)
      (on : condition.Readable) (clauses : ReadableClauses columns none [] []) :
      Statement.Readable (.select columns (.join (.item left) kind right condition) none [] [])
  | union {lefts rights : List SelectItem} {left right : TableRef}
      (drawnLeft : ∀ query ∈ left.query?, Statement.Readable query)
      (drawnRight : ∀ query ∈ right.query?, Statement.Readable query)
      (leftClauses : ReadableClauses lefts none [] [])
      (rightClauses : ReadableClauses rights none [] []) :
      Statement.Readable (.union true (.plain lefts left) (.plain rights right))

theorem ReadableClauses.plain {columns : List SelectItem}
    (items : ∀ item ∈ columns, item.expr.Readable) : ReadableClauses columns none [] [] where
  items := items
  condition := nofun
  groups := nofun
  keys := nofun

theorem ReadableClauses.over {columns : List SelectItem} {condition : Option Expr}
    {groups : List Expr} {keys : List (Expr × Bool)}
    (h : ReadableClauses columns condition groups keys) {source : Source}
    (drawn : source.ReadBack) : ReadableSelect columns source condition groups keys where
  items := h.items
  source := drawn
  condition := h.condition
  groups := h.groups
  keys := h.keys

theorem readBack_of_query {table : TableRef} (h : ∀ query ∈ table.query?, query.ReadBack) :
    table.ReadBack := by
  cases table with
  | table name asName => exact readBack_table name asName
  | subquery query asName => exact readBack_subquery (h query rfl) asName

/-- The text of a readable statement is read back. -/
theorem Statement.Readable.readBack {st : Statement} (h : st.Readable) : st.ReadBack := by
  induction h with
  | select _ clauses ih =>
    apply readBack_select
    exact clauses.over (readBack_item (readBack_of_query ih))
  | join _ kind _ on clauses ihl ihr =>
    apply readBack_select
    exact clauses.over (readBack_join (readBack_of_query ihl) (readBack_of_query ihr) kind on)
  | union _ _ leftClauses rightClauses ihl ihr =>
    apply readBack_union
    · exact leftClauses.over (readBack_item (readBack_of_query ihl))
    · exact rightClauses.over (readBack_item (readBack_of_query ihr))

end Crosstab.Sql

namespace Crosstab

open Sql

/-! ## Compiled statements -/

theorem Plan.DrawsFrom.readable {s : Schema} {p : Plan s} {number : Nat} {ref : TableRef}
    (h : p.DrawsFrom number ref)
    (inside : ∀ st, p.statement (number + 1) = .ok st → st.Readable) :
    ∀ query ∈ ref.query?, query.Readable := by
  cases h with
  | table => exact nofun
  | statement compiled =>
    rintro query ⟨⟩
    exact inside _ compiled

/-- A compiled statement is readable. -/
theorem Plan.readable_of_statement {s : Schema} (p : Plan s) (next : Nat) (st : Statement)
    (h : p.statement next = .ok st) : st.Readable := by
  induction p generalizing next st with
  | table name s named =>
    cases emits_of_statement h
    have drawn : ∀ query ∈ (TableRef.table name none).query?, query.Readable := nofun
    exact .select drawn (.plain (readable_shown s))
  | @project s t source columns derived ih =>
    have .project child := emits_of_statement h
    exact .select (child.readable (ih _)) (.plain (readable_shown t))
  | @filter s source predicate checked ih =>
    have .filter child compiled := emits_of_statement h
    have plain := ReadableClauses.plain (readable_shown s)
    refine .select (child.readable (ih _)) { plain with condition := ?_ }
    simpa using readable_sql compiled
  | @groupBy s t source columns aggregates derived ih =>
    have .groupBy child grouped aggregated := emits_of_statement h
    obtain ⟨keys, items⟩ := readable_grouping grouped aggregated
    exact .select (child.readable (ih _)) { ReadableClauses.plain items with groups := keys }
  | @sort s source keys checked ih =>
    have .sort child ordered := emits_of_statement h
    have plain := ReadableClauses.plain (readable_shown s)
    exact .select (child.readable (ih _)) { plain with keys := readable_orderKeys ordered }
  | @extend s t source column type value derived ih =>
    have .extend child valued := emits_of_statement h
    refine .select (child.readable (ih _)) (.plain ?_)
    refine List.forall_mem_append.2 ⟨readable_shown s, ?_⟩
    simpa using readable_derivedExpr valued
  | @mapColumns s t source mapping derived ih =>
    have .mapColumns child renamed := emits_of_statement h
    exact .select (child.readable (ih _)) (.plain (readable_renamed renamed))
  | @mapColumnsAt s t source mapping derived ih =>
    have .mapColumnsAt child renamed := emits_of_statement h
    exact .select (child.readable (ih _)) (.plain (readable_renamed renamed))
  | @concat s r t left right derived ihl ihr =>
    have .concat leftChild rightChild := emits_of_statement h
    exact .union (leftChild.readable (ihl _)) (rightChild.readable (ihr _))
      (.plain (readable_shown s)) (.plain (readable_shown r))
  | @join s r t left right keys kind nullSafe derived ihl ihr =>
    have .join leftChild rightChild paired compiled := emits_of_statement h
    exact .join (leftChild.readable (ihl _)) kind (rightChild.readable (ihr _))
      (readable_joinCondition compiled) (.plain (readable_joined paired))

/-- The text of a compiled statement is read back. -/
theorem Plan.readBack_of_statement {s : Schema} (p : Plan s) (next : Nat) (st : Statement)
    (h : p.statement next = .ok st) : st.ReadBack := (p.readable_of_statement next st h).readBack

/-- Two queries have the same SQL exactly if their statements are the same, with integers for truth
values. -/
theorem Query.sql_eq_iff {q r : Query} {qs rs : Statement} (hq : q.statement = .ok qs)
    (hr : r.statement = .ok rs) : q.sql = r.sql ↔ qs.normal = rs.normal := by
  rw [Query.sql, Query.sql, hq, hr]
  constructor
  · intro same
    have text : qs.render = rs.render := Except.ok.inj same
    obtain ⟨fuel, readQ, readR⟩ := ((q.plan.readBack_of_statement 0 qs hq).and
      (r.plan.readBack_of_statement 0 rs hr)).exists
    have ends : Follows [")"] [] := .inl rfl
    have read := readQ [] ends
    rw [text, readR [] ends] at read
    exact (congrArg Prod.fst (Option.some.inj read)).symm
  · intro same
    have text : qs.render = rs.render := by rw [← qs.render_normal, same, rs.render_normal]
    exact congrArg Except.ok text

/-- Sales and whether they are marked. The names look like parts of a statement. -/
def markedSchema (type : DataType) : Schema where
  columns := [⟨"id\" AS \"t0", .integer, "Id"⟩, ⟨"marked", type, "Marked"⟩]
  ids_nonempty := by simp
  ids_distinct := by
    have apart : foldCase "id\" AS \"t0" ≠ foldCase "marked" := by decide
    simp [apart]

def markedSales (type : DataType) (mark : Scalar) : Except Error Query := do
  let sales ← (Query.table "sales\") -- " (markedSchema type)).mapError .build
  sales.filter (.combine .eq [.column "marked", .const mark type])

def markedStatement (mark : Literal) : Statement :=
  .select [.plain (.named "id\" AS \"t0"), .plain (.named "marked")]
    (.item (.table "sales\") -- " (some "t0")))
    (some (.binary (.named "marked") .eq (.literal mark))) [] []

theorem sql_eq_iff_markedSales : ∃ q r, markedSales .boolean (.bool true) = .ok q ∧
    markedSales .integer (.int 1) = .ok r ∧ q.statement = .ok (markedStatement (.boolean true)) ∧
      r.statement = .ok (markedStatement (.integer 1)) ∧ q.sql = r.sql := by
  obtain ⟨q, hq, qs⟩ : ∃ q, markedSales .boolean (.bool true) = .ok q ∧
      q.statement = .ok (markedStatement (.boolean true)) := ⟨_, rfl, rfl⟩
  obtain ⟨r, hr, rs⟩ : ∃ r, markedSales .integer (.int 1) = .ok r ∧
      r.statement = .ok (markedStatement (.integer 1)) := ⟨_, rfl, rfl⟩
  exact ⟨q, r, hq, hr, qs, rs, (Query.sql_eq_iff qs rs).2 rfl⟩

end Crosstab
