import Crosstab.Proofs.Sql.Writing

namespace Crosstab

namespace Scalar

/-- The constants that SQL text cannot hold. -/
def unwritable (values : List Scalar) : List Scalar := values.filter fun value => !value.writable

theorem unwritable_append (values more : List Scalar) :
    unwritable (values ++ more) = unwritable values ++ unwritable more := List.filter_append ..

theorem mem_unwritable {values : List Scalar} {value : Scalar} :
    value ∈ unwritable values ↔ value ∈ values ∧ value.writable = false := by
  simp [unwritable]

end Scalar

open Scalar (unwritable unwritable_append mem_unwritable)

namespace Query

/-- SQL text can hold all names of a query, and all constants but these. -/
structure Spells (q : Query) (values : List Scalar) : Prop where
  ids : ∀ name ∈ q.schema.ids, '\x00' ∉ name.toList
  drawn : ∀ name ∈ q.plan.drawn, '\x00' ∉ name.toList
  faults : unwritable q.plan.constants = values

section
variable {q other r : Query} {values more : List Scalar}

theorem spells_of_sql {text : String} (h : q.sql = .ok text) : q.Spells [] := by
  obtain ⟨named, valued⟩ := q.writes_sql.exists_ok_iff.1 ⟨text, h⟩
  refine ⟨fun name mem => ?_, fun name mem => ?_, ?_⟩
  · exact named name (q.plan.ids_subset_spelled mem)
  · exact named name (q.plan.drawn_subset_spelled mem)
  · simpa [unwritable] using valued

namespace Spells

theorem spelled (h : q.Spells values) : ∀ name ∈ q.plan.spelled, '\x00' ∉ name.toList := by
  intro name mem
  obtain id | drawn := List.mem_append.1 (q.plan.spelled_subset mem)
  · exact h.ids name id
  · exact h.drawn name drawn

theorem exists_sql_iff (h : q.Spells values) : (∃ text, q.sql = .ok text) ↔ values = [] := by
  rw [q.writes_sql.exists_ok_iff, and_iff_right h.spelled, ← h.faults]
  simp [unwritable]

/-- A query whose names can be written has no SQL only because of a constant. -/
theorem error (h : q.Spells values) {e : CompileError} (failed : q.sql = .error e) :
    Sql.Unwritten [] values e := by
  have mem {value : Scalar} (constant : value ∈ q.plan.constants)
      (bad : value.writable = false) : value ∈ values :=
    h.faults ▸ mem_unwritable.2 ⟨constant, bad⟩
  cases q.writes_sql.error e failed with
  | name named nul => exact absurd nul (h.spelled _ named)
  | text constant nul => exact .text (mem constant (by simpa [Scalar.writable] using nul)) nul
  | real constant infinite => exact .real (mem constant infinite) infinite

/-- Among constants without NUL, only a real that is not finite is at fault. -/
theorem sql_iff_reals (h : q.Spells (unwritable values))
    (clean : ∀ s, .text s ∈ values → '\x00' ∉ s.toList) :
    ((∃ text, q.sql = .ok text) ↔ ∀ v, .real v ∈ values → v.isFinite = true) ∧
      ∀ e, q.sql = .error e → ∃ v, .real v ∈ values ∧ v.isFinite = false ∧ e = .notFinite v := by
  constructor
  · rw [h.exists_sql_iff, unwritable, List.filter_eq_nil_iff]
    constructor
    · intro writable v mem
      simpa [Scalar.writable] using writable _ mem
    · intro finite value mem
      cases value with
      | null | bool _ | int _ => simp [Scalar.writable]
      | real v => simpa [Scalar.writable] using finite v mem
      | text s => simpa [Scalar.writable] using clean s mem
  · intro e failed
    cases h.error failed with
    | name mem => cases mem
    | text mem nul => exact absurd nul (clean _ (mem_unwritable.1 mem).1)
    | real mem infinite => exact ⟨_, (mem_unwritable.1 mem).1, infinite, rfl⟩

/-! ## Builders -/

theorem extend (h : q.Spells values) {column : String} {type : DataType} {value : Expr}
    (made : q.extend column type value = .ok r) (named : '\x00' ∉ column.toList)
    (valued : unwritable value.constants = []) : r.Spells values := by
  have ids : ∀ name ∈ r.schema.ids, '\x00' ∉ name.toList := by
    rw [Schema.ids, columns_extend made, List.map_append]
    exact List.forall_mem_append.2 ⟨h.ids, List.forall_mem_singleton.2 named⟩
  obtain ⟨t, derived, rfl⟩ := extend_eq_ok_iff.1 made
  refine ⟨ids, List.forall_mem_append.2 ⟨ids, h.drawn⟩, ?_⟩
  show unwritable (value.constants ++ q.plan.constants) = values
  rw [unwritable_append, valued, h.faults, List.nil_append]

/-- Only the condition of a filter adds constants that SQL cannot hold. -/
theorem filter (h : q.Spells values) {predicate : Expr} (made : q.filter predicate = .ok r) :
    r.Spells (unwritable predicate.constants ++ values) := by
  obtain ⟨checked, rfl⟩ := filter_eq_ok_iff.1 made
  refine ⟨h.ids, List.forall_mem_append.2 ⟨h.ids, h.drawn⟩, ?_⟩
  show unwritable (predicate.constants ++ q.plan.constants) = _
  rw [unwritable_append, h.faults]

theorem project (h : q.Spells values) {columns : List String} (made : q.project columns = .ok r) :
    r.Spells values := by
  obtain ⟨t, derived, rfl⟩ := project_eq_ok_iff.1 made
  have found := (Schema.project_eq_ok_iff.1 derived).2
  have ids : ∀ name ∈ t.ids, '\x00' ∉ name.toList := by
    refine List.forall_mem_map.2 fun c hc => ?_
    exact h.ids _ (List.mem_map_of_mem (Schema.mem_of_found found c hc))
  exact ⟨ids, List.forall_mem_append.2 ⟨ids, h.drawn⟩, h.faults⟩

theorem groupBy (h : q.Spells values) {columns : List String} {aggregates : List AggregateColumn}
    (made : q.groupBy columns aggregates = .ok r) : r.Spells values := by
  obtain ⟨t, derived, rfl⟩ := groupBy_eq_ok_iff.1 made
  obtain ⟨-, groups, rest, ht, grouped, folded⟩ := Schema.groupBy_eq_ok_iff.1 derived
  have ids : ∀ name ∈ t.ids, '\x00' ∉ name.toList := by
    rw [Schema.ids, ht, List.map_append]
    refine List.forall_mem_append.2 ⟨List.forall_mem_map.2 ?_, List.forall_mem_map.2 ?_⟩
    · intro c hc
      exact h.ids _ (List.mem_map_of_mem (Schema.mem_of_found grouped c hc))
    · intro c hc
      obtain ⟨a, -, ha⟩ := exists_of_mem_right folded hc
      obtain ⟨input, type, hi, -, rfl⟩ := Schema.aggregated_eq_ok_iff.1 ha
      have column : input.id ∈ q.schema.ids :=
        List.mem_map_of_mem (Schema.find?_eq_some_iff.1 hi).1
      exact h.ids _ column
  exact ⟨ids, List.forall_mem_append.2 ⟨ids, h.drawn⟩, h.faults⟩

theorem sort (h : q.Spells values) {keys : List SortKey} (made : q.sort keys = .ok r) :
    r.Spells values := by
  obtain ⟨checked, rfl⟩ := sort_eq_ok_iff.1 made
  exact ⟨h.ids, List.forall_mem_append.2 ⟨h.ids, h.drawn⟩, h.faults⟩

theorem constants_concat (made : q.concat other = .ok r) :
    r.plan.constants = q.plan.constants ++ other.plan.constants := by
  obtain ⟨t, derived, rfl⟩ := concat_eq_ok_iff.1 made
  exact Plan.constants_concat

theorem concat (h : q.Spells values) (h' : other.Spells more) (made : q.concat other = .ok r) :
    r.Spells (values ++ more) := by
  have faults : unwritable r.plan.constants = values ++ more := by
    rw [constants_concat made, unwritable_append, h.faults, h'.faults]
  obtain ⟨t, derived, rfl⟩ := concat_eq_ok_iff.1 made
  obtain ⟨len, each⟩ := Schema.concat_eq_ok_iff.1 derived
  refine ⟨?_, ?_, faults⟩
  · rw [Schema.ids, Schema.ids_concatColumns len each]
    exact h.ids
  · show ∀ name ∈ (Plan.concat q.plan other.plan derived).spelled, _
    rw [Plan.spelled_concat]
    exact List.forall_mem_append.2 ⟨List.forall_mem_append.2 ⟨h.ids, h'.ids⟩,
      List.forall_mem_append.2 ⟨h.drawn, h'.drawn⟩⟩

theorem join (h : q.Spells values) (h' : other.Spells more) {keys : List String} {kind : JoinKind}
    {nullSafe : Bool} (made : q.join other keys kind nullSafe = .ok r) :
    r.Spells (values ++ more) := by
  obtain ⟨t, derived, rfl⟩ := join_eq_ok_iff.1 made
  have ids : ∀ name ∈ t.ids, '\x00' ∉ name.toList := by
    refine List.forall_mem_map.2 fun c hc => ?_
    obtain left | right := Schema.mem_of_mem_join derived hc
    · exact h.ids _ (List.mem_map_of_mem left)
    · exact h'.ids _ (List.mem_map_of_mem right)
  have keysLeft : ∀ name ∈ keys.map (Sql.idOf q.schema), '\x00' ∉ name.toList :=
    List.forall_mem_map.2 fun _ hk => h.ids _ (Sql.idOf_mem (Schema.has_of_join derived hk).1)
  have keysRight : ∀ name ∈ keys.map (Sql.idOf other.schema), '\x00' ∉ name.toList :=
    List.forall_mem_map.2 fun _ hk => h'.ids _ (Sql.idOf_mem (Schema.has_of_join derived hk).2)
  have own := List.forall_mem_append.2 ⟨ids, List.forall_mem_append.2 ⟨keysLeft, keysRight⟩⟩
  refine ⟨ids, ?_, ?_⟩
  · show ∀ name ∈ (Plan.join q.plan other.plan keys kind nullSafe derived).spelled, _
    rw [Plan.spelled_join]
    exact List.forall_mem_append.2 ⟨own, List.forall_mem_append.2 ⟨h.drawn, h'.drawn⟩⟩
  · rw [Plan.constants_join, unwritable_append, h.faults, h'.faults]

end Spells

end

end Query

end Crosstab
