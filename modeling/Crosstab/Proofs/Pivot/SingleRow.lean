import Crosstab.Proofs.Pivot.Stages
import Crosstab.Proofs.Sql.Agreement
import Crosstab.Proofs.Sql.SingleRow

/-!
# The root row in SQL

The root of a pivot tree aggregates all base rows. Its query groups them by nothing and adds
constants, so its SQL has one row if some aggregate of the layout is not always null. If all are, the
root is repeated for every base row.
-/

namespace Crosstab

open Sql

namespace Plan

variable {V : Type} (E : Engine V) (db : Tables V) {b s t : Schema}

/-- A statement of a plan is part of another, whose number of rows is a function of its own. -/
def PartOf (base : Plan b) (count : Nat → Nat) (st : Statement) : Prop :=
  ∃ number, ∃ inner ∈ st.parts, ∃ rows out, base.statement number = .ok inner ∧
    inner.rows E db = some rows ∧ st.rows E db = some out ∧ out.length = count rows.length

/-- Every statement of the plan contains one of a base plan and has as many rows as `count` makes of
the number of its rows. -/
structure CountsFrom (base : Plan b) (count : Nat → Nat) (p : Plan s) : Prop where
  stored : p.StoredIn db
  composed : p.children ≠ []
  counted : ∀ next st, p.statement next = .ok st → base.PartOf E db count st

variable {E db} {base : Plan b} {count : Nat → Nat} {source : Plan s}

theorem countsFrom_self (stored : base.StoredIn db) (composed : base.children ≠ []) :
    base.CountsFrom E db id base where
  stored := stored
  composed := composed
  counted next st h := by
    obtain ⟨rows, found, -⟩ := base.exists_rows (E := E) next st h stored
    exact ⟨next, st, st.self_mem_parts, rows, rows, h, found, found, rfl⟩

/-- A SELECT over a subquery has as many rows as it makes of those that it draws. -/
theorem CountsFrom.select (counts : base.CountsFrom E db count source) {number : Nat}
    {ref : TableRef} (child : source.DrawsFrom number ref) (change : Nat → Nat)
    {columns : List SelectItem}
    (shows : ∀ names drawn rows, Serves E db s ref names drawn rows →
      ∃ out, (Statement.plain columns ref).rows E db = some out ∧
        out.length = change rows.length) :
    base.PartOf E db (fun n => change (count n)) (.plain columns ref) := by
  obtain ⟨st, compiled, rfl⟩ := child.table_or_subquery.resolve_left counts.composed
  obtain ⟨_, inner, mem, rows, drawn, made, found, served, len⟩ := counts.counted _ st compiled
  obtain ⟨out, shown, same⟩ := shows _ _ _
    (serves_subquery compiled served (wide_of_statement compiled served) _)
  rw [len] at same
  exact ⟨_, inner, parts_subset_select (.item _) mem, rows, out, made, found, shown, same⟩

theorem CountsFrom.groupBy (counts : base.CountsFrom E db count source)
    {aggregates : List AggregateColumn} (derived : s.groupBy [] aggregates = .ok t) :
    base.CountsFrom E db (fun n => if ∃ a ∈ aggregates, a.func ≠ .null then 1 else count n)
      (groupBy source [] aggregates derived) where
  stored := counts.stored
  composed := List.cons_ne_nil _ _
  counted next st h := by
    obtain ⟨rest, ref, rfl, child, aggregated⟩ := select_of_groupBy h
    refine counts.select child (fun n => if ∃ a ∈ aggregates, a.func ≠ .null then 1 else n) ?_
    exact fun names drawn rows serves => rows_ungrouped serves aggregated

theorem CountsFrom.extend (counts : base.CountsFrom E db count source) {column : String}
    {type : DataType} {value : Expr} (derived : s.extend column type value = .ok t) :
    base.CountsFrom E db count (extend source column type value derived) where
  stored := counts.stored
  composed := List.cons_ne_nil _ _
  counted next st h := by
    have .extend child valued := emits_of_statement h
    refine counts.select child id fun names drawn rows serves => ?_
    exact ⟨_, rows_extend serves derived valued, List.length_mapIdx⟩

theorem CountsFrom.project (counts : base.CountsFrom E db count source) {columns : List String}
    (derived : s.project columns = .ok t) :
    base.CountsFrom E db count (project source columns derived) where
  stored := counts.stored
  composed := List.cons_ne_nil _ _
  counted next st h := by
    have .project child := emits_of_statement h
    have sub := Schema.mem_of_found (Schema.project_eq_ok_iff.1 derived).2
    refine counts.select child id fun names drawn rows serves => ?_
    exact ⟨_, rows_shown serves sub, List.length_map _⟩

end Plan

namespace PivotTree

variable {V : Type} {E : Engine V} {db : Tables V} {t : PivotTree} {b : Schema} {base : Plan b}
  {count : Nat → Nat} {q r : Query}

theorem countsFrom_extend (counts : base.CountsFrom E db count q.plan) {column : String}
    {type : DataType} {value : Expr} (h : q.extend column type value = .ok r) :
    base.CountsFrom E db count r.plan := by
  obtain ⟨s, derived, rfl⟩ := Query.extend_eq_ok_iff.1 h
  exact counts.extend derived

/-- The bookkeeping columns neither add nor drop rows. -/
theorem countsFrom_finish (counts : base.CountsFrom E db count q.plan) {depth known : Nat}
    {label : Expr} {isRoot : Bool} (h : t.finish q depth label isRoot known = .ok r) :
    base.CountsFrom E db count r.plan := by
  obtain ⟨q₁, q₂, q₃, q₄, h₁, h₂, h₃, h₄, h⟩ := finish_eq_ok_iff.1 h
  have marked := countsFrom_extend (countsFrom_extend (countsFrom_extend counts h₁) h₂) h₃
  have placed : base.CountsFrom E db count q₄.plan :=
    foldlM_closed (P := fun q => base.CountsFrom E db count q.plan) h₄ marked
      fun _ _ _ counts h => countsFrom_extend counts h
  obtain ⟨s, derived, rfl⟩ := Query.project_eq_ok_iff.1 h
  exact placed.project derived

theorem func_of_aggregateOf {spec : PivotSpec} {pivots : List Column} {c : Column}
    {a : AggregateColumn} (h : aggregateOf spec pivots c = .ok a) :
    a.func = chosenAggregate spec c := by
  obtain ⟨output, -, h⟩ := bind_eq_ok_iff.1 h
  dsimp only at h
  split at h
  · cases h
  · rw [← pure_eq_ok_iff.1 h]

/-- The root is counted by the aggregates that the layout has for the columns. -/
theorem exists_folded_iff {base : Query} {spec : PivotSpec} (made : make base spec = .ok t) :
    (∃ a ∈ t.folded 0, a.func ≠ .null) ↔
      ∃ c ∈ t.base.schema.columns, chosenAggregate spec c ≠ .null := by
  obtain ⟨-, -, -, -, -, aggregates, -⟩ := make_eq_ok made
  have each := mapM_eq_ok_iff.1 aggregates
  have all : t.folded 0 = t.aggregates := List.filter_true _
  rw [all]
  constructor
  · rintro ⟨a, ha, func⟩
    obtain ⟨c, hc, chosen⟩ := exists_of_mem_right each ha
    exact ⟨c, hc, func_of_aggregateOf chosen ▸ func⟩
  · rintro ⟨c, hc, func⟩
    obtain ⟨a, ha, chosen⟩ := exists_of_mem_left each hc
    exact ⟨a, ha, func_of_aggregateOf chosen ▸ func⟩

/-- The root has one row, or as many rows as the base if all aggregates are always null. -/
theorem countsFrom_rootQuery {base : Query} {spec : PivotSpec} (made : make base spec = .ok t)
    (stored : base.plan.StoredIn db) (h : t.rootQuery = .ok r) :
    t.base.plan.CountsFrom E db (fun n =>
      if ∃ c ∈ t.base.schema.columns, chosenAggregate spec c ≠ .null then 1 else n) r.plan := by
  obtain ⟨-, -, -, extended, -⟩ := make_eq_ok made
  obtain ⟨s, derived, same⟩ := Query.extend_eq_ok_iff.1 extended
  obtain ⟨groups, grouped, finished⟩ := rootQuery_eq_ok_iff.1 h
  obtain ⟨u, ungrouped, rfl⟩ := Query.groupBy_eq_ok_iff.1 grouped
  have own : t.base.plan.CountsFrom E db id t.base.plan := by
    rw [same]
    exact Plan.countsFrom_self stored (List.cons_ne_nil _ _)
  have counts := countsFrom_finish (own.groupBy ungrouped) finished
  have chosen (n : Nat) : (if ∃ a ∈ t.folded 0, a.func ≠ .null then 1 else n) =
      if ∃ c ∈ t.base.schema.columns, chosenAggregate spec c ≠ .null then 1 else n :=
    if_congr (exists_folded_iff made) rfl rfl
  rw [← funext chosen]
  exact counts

end PivotTree

/-- A grouping by nothing is an aggregate query in SQL, and has one row, if one of its aggregates is
not always null; otherwise it has as many rows as it draws. So the root of a pivot tree has one row if
the aggregate of some base column is not always null, and otherwise as many as the base. -/
theorem Query.statement_groupsAll {V : Type} (E : Engine V) (db : Tables V) :
    (∀ (q : Query) (st : Statement), q.statement = .ok st →
      ∀ node ∈ q.plan.nodes, ∀ aggregates, node.plan.head = .groupBy [] aggregates →
        (∃ number, ∃ part ∈ st.parts, node.plan.statement number = .ok part) ∧
        ∀ number part, node.plan.statement number = .ok part → ∃ ref,
          part.GroupsAll aggregates ref ∧
            (q.plan.StoredIn db → part.CountsAll E db aggregates ref)) ∧
    ∀ base spec t root, PivotTree.make base spec = .ok t → t.rootQuery = .ok root →
      base.plan.StoredIn db → ∀ st, root.statement = .ok st →
        ∃ number, ∃ inner ∈ st.parts, ∃ rows out, t.base.plan.statement number = .ok inner ∧
          inner.rows E db = some rows ∧ st.rows E db = some out ∧
          out.length = if ∃ c ∈ t.base.schema.columns, PivotTree.chosenAggregate spec c ≠ .null
            then 1 else rows.length := by
  constructor
  · intro q st h node mem aggregates head
    have composed : node.plan.children ≠ [] := by
      rw [← List.length_pos_iff, Plan.length_children, head]
      exact Nat.one_pos
    refine ⟨q.plan.exists_part h mem composed, fun number part made => ?_⟩
    obtain ⟨ref, grouped, counted⟩ := Plan.groupsAll_of_head (E := E) head made
    refine ⟨ref, grouped, fun stored => counted fun table inside => ?_⟩
    exact stored table (q.plan.tables_subset node mem inside)
  · intro base spec t root made rooted stored st h
    exact (PivotTree.countsFrom_rootQuery made stored rooted).counted 0 st h

/-- Over no readings, the root with the default aggregates is still one row. -/
theorem statement_groupsAll_readings : ∃ t root st,
    PivotTree.make readings .default = .ok t ∧ t.rootQuery = .ok root ∧
      root.statement = .ok st ∧ root.plan.StoredIn (readingsOf []) ∧
      (∃ part ∈ st.parts, ∃ ref, part.GroupsAll [⟨.sum, "level"⟩, ⟨.sum, "Rec"⟩] ref ∧
        part.CountsAll unbounded (readingsOf []) [⟨.sum, "level"⟩, ⟨.sum, "Rec"⟩] ref) ∧
      ∃ out, st.rows unbounded (readingsOf []) = some out ∧ out.length = 1 := by
  obtain ⟨t, root, st, made, rooted, compiled, tables, node, mem, head, columns⟩ : ∃ t root st,
      PivotTree.make readings .default = .ok t ∧ t.rootQuery = .ok root ∧
        root.statement = .ok st ∧ root.plan.tables = [("waterLevels", ["level"])] ∧
        ∃ node ∈ root.plan.nodes,
          node.plan.head = .groupBy [] [⟨.sum, "level"⟩, ⟨.sum, "Rec"⟩] ∧
          t.base.schema.columns = [.named "level" .integer, .named "Rec" .integer] :=
    ⟨_, _, _, rfl, rfl, rfl, rfl, _, .tail _ (.tail _ (.tail _ (.tail _ (.head _)))), rfl, rfl⟩
  have readable (table : String × List String) (h : table ∈ [("waterLevels", ["level"])]) :
      ∃ stored, readingsOf [] table.1 = some stored ∧
        ∀ id ∈ table.2, ∃ name ∈ stored.names, SameName name id := by
    rw [List.mem_singleton.1 h]
    exact ⟨_, rfl, by decide⟩
  have stored : root.plan.StoredIn (readingsOf []) := fun table h => readable table (tables ▸ h)
  obtain ⟨nodes, roots⟩ := Query.statement_groupsAll unbounded (readingsOf [])
  obtain ⟨⟨number, part, inside, own⟩, groups⟩ := nodes root st compiled node mem _ head
  obtain ⟨ref, grouped, counted⟩ := groups number part own
  obtain ⟨_, _, _, rows, out, -, -, shown, count⟩ :=
    roots readings .default t root made rooted readable st compiled
  have chosen : ∃ c ∈ t.base.schema.columns,
      PivotTree.chosenAggregate .default c ≠ .null := by
    rw [columns]
    decide
  rw [if_pos chosen] at count
  exact ⟨t, root, st, made, rooted, compiled, stored, ⟨part, inside, ref, grouped, counted stored⟩,
    out, shown, count⟩

/-- The level of all readings as if none were known. -/
def unknownLevel : Except BuildError Query := readings.groupBy [] [⟨.null, "level"⟩]

/-- A layout without any totals. -/
def withoutTotals : PivotSpec :=
  { PivotSpec.default with aggregations := ⟨[("Rec", .null), ("level", .null)], by decide⟩ }

/-- Two readings that are grouped by nothing give two rows if all aggregates are always null, and so
does the root of their tree. -/
theorem unknownLevel_repeats :
    (∃ q st, unknownLevel = .ok q ∧ q.statement = .ok st ∧
      st.rows unbounded (readingsOf [.int 1, .int 2]) = some [[.null], [.null]]) ∧
    ∃ t root st, PivotTree.make readings withoutTotals = .ok t ∧ t.rootQuery = .ok root ∧
      root.statement = .ok st ∧
      (st.rows unbounded (readingsOf [.int 1, .int 2])).map List.length = some 2 :=
  ⟨⟨_, _, rfl, rfl, rfl⟩, _, _, _, rfl, rfl, rfl, rfl⟩

end Crosstab
