import Crosstab.Proofs.Naming

namespace Crosstab.Schema

variable {s r t : Schema}

theorem project_eq_ok_iff {names : List String} :
    s.project names = .ok t ↔
      names ≠ [] ∧ List.Forall₂ (fun name c => s.find? name = some c) names t.columns := by
  unfold project
  split
  · next h => simp [h]
  · next h =>
    simp only [bind_eq_ok_iff, mapM_eq_ok_iff, build_eq_ok_iff, lookup_eq_ok_iff, ne_eq, h,
      not_false_eq_true, true_and]
    constructor
    · rintro ⟨_, found, rfl⟩; exact found
    · intro found; exact ⟨_, found, rfl⟩

theorem checkPredicate_eq_ok_iff {predicate : Expr} :
    s.checkPredicate predicate = .ok () ↔
      predicate.hasRowNumber = false ∧ predicate.type s = .ok .boolean := by
  unfold checkPredicate
  split
  · next h => simp [h]
  · next h =>
    simp only [h]
    split
    · next e he => simp [he]
    · next t ht =>
      rw [ht]
      by_cases hb : t = .boolean <;> simp [hb]

theorem aggregated_eq_ok_iff {a : AggregateColumn} {c : Column} :
    s.aggregated a = .ok c ↔ ∃ input type, s.find? a.column = some input ∧
      a.func.outputType input.type = .ok type ∧ c = { input with type } := by
  unfold aggregated
  simp only [bind_eq_ok_iff, pure_eq_ok_iff, lookup_eq_ok_iff]
  constructor
  · rintro ⟨input, hi, type, ht, rfl⟩; exact ⟨input, type, hi, ht, rfl⟩
  · rintro ⟨input, type, hi, ht, rfl⟩; exact ⟨input, hi, type, ht, rfl⟩

theorem groupBy_eq_ok_iff {names : List String} {aggregates : List AggregateColumn} :
    s.groupBy names aggregates = .ok t ↔
      ¬ (names = [] ∧ aggregates = []) ∧ ∃ groups rest, t.columns = groups ++ rest ∧
        List.Forall₂ (fun name c => s.find? name = some c) names groups ∧
        List.Forall₂ (fun a c => s.aggregated a = .ok c) aggregates rest := by
  unfold groupBy
  split
  · next h => simp [h]
  · next h =>
    simp only [bind_eq_ok_iff, mapM_eq_ok_iff, build_eq_ok_iff, lookup_eq_ok_iff, h,
      not_false_eq_true, true_and]
    constructor
    · rintro ⟨groups, hg, rest, hr, ht⟩; exact ⟨groups, rest, ht, hg, hr⟩
    · rintro ⟨groups, rest, ht, hg, hr⟩; exact ⟨groups, hg, rest, hr, ht⟩

/-- The columns that a grouping names are there. -/
theorem has_of_groupBy {names : List String} {aggregates : List AggregateColumn}
    (derived : s.groupBy names aggregates = .ok t) :
    (∀ name ∈ names, s.has name = true) ∧ ∀ a ∈ aggregates, s.has a.column = true := by
  obtain ⟨-, groups, rest, -, grouped, each⟩ := groupBy_eq_ok_iff.1 derived
  constructor
  · intro name hn
    obtain ⟨c, -, hc⟩ := exists_of_mem_left grouped hn
    simp [has, hc]
  · intro a ha
    obtain ⟨c, -, hc⟩ := exists_of_mem_left each ha
    obtain ⟨input, -, hi, -⟩ := aggregated_eq_ok_iff.1 hc
    simp [has, hi]

theorem checkSort_eq_ok_iff {keys : List SortKey} :
    s.checkSort keys = .ok () ↔ keys ≠ [] ∧ ∀ k ∈ keys, s.has k.column = true := by
  unfold checkSort
  split
  · next h => simp [h]
  · next h =>
    simp only [bind_eq_ok_iff, mapM_eq_ok_iff, lookup_eq_ok_iff, pure_eq_ok_iff, and_true, ne_eq, h,
      not_false_eq_true, true_and]
    clear h
    induction keys with
    | nil => exact ⟨fun _ => by simp, fun _ => ⟨_, .nil⟩⟩
    | cons k keys ih =>
      rw [List.forall_mem_cons, ← ih]
      constructor
      · rintro ⟨_, hk⟩
        cases hk with
        | cons first others => exact ⟨by simp [has, first], _, others⟩
      · rintro ⟨first, _, others⟩
        obtain ⟨c, hc⟩ := Option.isSome_iff_exists.1 first
        exact ⟨_, .cons hc others⟩

theorem extend_eq_ok_iff {column : String} {type : DataType} {value : Expr} :
    s.extend column type value = .ok t ↔ s.has column = false ∧
      ∃ actual, value.type s = .ok actual ∧ actual.castsTo type = true ∧
        t.columns = s.columns ++ [Column.named column type] := by
  unfold extend
  split
  · next h => simp [h]
  · next h =>
    simp only [h, true_and]
    split
    · next e he => simp [he]
    · next actual ha =>
      simp only [ha, Except.ok.injEq, exists_eq_left']
      split
      · next hc => simp [hc, mapError_eq_ok_iff, build_eq_ok_iff]
      · next hc => simp [hc]

/-- Renaming goes through the columns one entry at a time; it never changes their number or their
types. -/
theorem renamed_types {α : Type}
    {step : List Column → α × Renaming → Except BuildError (List Column)}
    (keeps : ∀ columns entry next, step columns entry = .ok next →
      next.map (·.type) = columns.map (·.type))
    {entries : List (α × Renaming)} {columns result : List Column}
    (h : entries.foldlM step columns = .ok result) :
    result.map (·.type) = columns.map (·.type) := by
  induction entries generalizing columns with
  | nil => rw [List.foldlM_nil, pure_eq_ok_iff] at h; rw [h]
  | cons entry entries ih =>
    rw [List.foldlM_cons, bind_eq_ok_iff] at h
    obtain ⟨next, hn, hr⟩ := h
    rw [ih hr, keeps _ _ _ hn]

theorem map_type_modify (columns : List Column) (i : Nat) (new : Renaming) :
    (columns.modify i new.apply).map (·.type) = columns.map (·.type) := by
  apply List.ext_getElem (by simp)
  intro j _ _
  simp only [List.getElem_map, List.getElem_modify]
  split <;> rfl

theorem types_of_mapColumns {mapping : OrderedMap String Renaming}
    (h : s.mapColumns mapping = .ok t) : t.columns.map (·.type) = s.columns.map (·.type) := by
  unfold mapColumns at h
  obtain ⟨columns, hc, ht⟩ := bind_eq_ok_iff.1 h
  rw [build_eq_ok_iff.1 ht]
  refine renamed_types ?_ hc
  rintro columns ⟨name, new⟩ next hn
  dsimp only at hn
  split at hn <;> cases hn
  exact map_type_modify _ _ _

theorem types_of_mapColumnsAt {mapping : OrderedMap Nat Renaming}
    (h : s.mapColumnsAt mapping = .ok t) : t.columns.map (·.type) = s.columns.map (·.type) := by
  unfold mapColumnsAt at h
  obtain ⟨columns, hc, ht⟩ := bind_eq_ok_iff.1 h
  rw [build_eq_ok_iff.1 ht]
  refine renamed_types ?_ hc
  rintro columns ⟨index, new⟩ next hn
  dsimp only at hn
  split at hn <;> cases hn
  exact map_type_modify _ _ _

/-- The columns that are renamed by name are there. -/
theorem has_of_mapColumns {mapping : OrderedMap String Renaming} (h : s.mapColumns mapping = .ok t) :
    ∀ e ∈ mapping.entries, s.has e.1 = true := by
  unfold mapColumns at h
  obtain ⟨columns, folded, -⟩ := bind_eq_ok_iff.1 h
  rintro ⟨name, new⟩ he
  obtain ⟨before, next, step⟩ := exists_of_foldlM_eq_ok folded _ he
  dsimp only at step
  split at step
  · next i found =>
    have some : (s.index? name).isSome = true := by rw [found]; rfl
    rw [index?, List.findIdx?_isSome, List.any_eq_true] at some
    obtain ⟨c, hc, same⟩ := some
    exact has_iff.2 ⟨c, hc, by simpa using same⟩
  · cases step

/-- The places that are renamed are those of columns. -/
theorem lt_of_mapColumnsAt {mapping : OrderedMap Nat Renaming} (h : s.mapColumnsAt mapping = .ok t) :
    ∀ e ∈ mapping.entries, e.1 < s.columns.length := by
  unfold mapColumnsAt at h
  obtain ⟨columns, folded, -⟩ := bind_eq_ok_iff.1 h
  rintro ⟨index, new⟩ he
  obtain ⟨before, next, step⟩ := exists_of_foldlM_eq_ok folded _ he
  dsimp only at step
  split at step
  · assumption
  · cases step

theorem concatColumn_eq_ok_iff {left right c : Column} :
    concatColumn left right = .ok c ↔ SameName left.id right.id ∧
      ∃ type, left.type.widen right.type = some type ∧ c = { left with type } := by
  unfold concatColumn
  split
  · next h =>
    simp only [h, true_and]
    split
    · next type hw => simp [hw, eq_comm]
    · next hw => simp [hw]
  · next h => simp [h]

theorem concat_eq_ok_iff :
    s.concat r = .ok t ↔ s.columns.length = r.columns.length ∧
      List.Forall₂ (fun pair c => concatColumn pair.1 pair.2 = .ok c)
        (s.columns.zip r.columns) t.columns := by
  unfold concat
  split
  · next h =>
    simp only [bind_eq_ok_iff, mapM_eq_ok_iff, build_eq_ok_iff, h, true_and]
    constructor
    · rintro ⟨_, found, rfl⟩; exact found
    · intro found; exact ⟨_, found, rfl⟩
  · next h => simp [h]

theorem keyColumn_eq_ok_iff {key : String} {c : Column} :
    s.keyColumn r key = .ok c ↔ s.find? key = some c ∧
      ∃ other, r.find? key = some other ∧ (c.type.widen other.type).isSome = true := by
  unfold keyColumn
  simp only [bind_eq_ok_iff, lookup_eq_ok_iff]
  constructor
  · rintro ⟨left, hl, right, hr, h⟩
    split at h
    · next type hw => cases h; exact ⟨hl, right, hr, by simp [hw]⟩
    · cases h
  · rintro ⟨hl, other, hr, hw⟩
    obtain ⟨type, hw⟩ := Option.isSome_iff_exists.1 hw
    exact ⟨c, hl, other, hr, by rw [hw]; rfl⟩

theorem join_eq_ok_iff {keys : List String} :
    s.join r keys = .ok t ↔ keys ≠ [] ∧ ∃ columns,
      List.Forall₂ (fun key c => s.keyColumn r key = .ok c) keys columns ∧
        t.columns = columns ++ s.without keys ++ r.without keys := by
  unfold join
  split
  · next h => simp [h]
  · next h =>
    simp only [bind_eq_ok_iff, mapM_eq_ok_iff, build_eq_ok_iff, ne_eq, h, not_false_eq_true,
      true_and]

theorem mem_without {names : List String} {c : Column} :
    c ∈ s.without names ↔ c ∈ s.columns ∧ ∀ name ∈ names, ¬ SameName name c.id := by
  simp [without]

/-- Columns that are found by name are columns. -/
theorem mem_of_found {names : List String} {columns : List Column}
    (h : List.Forall₂ (fun name c => s.find? name = some c) names columns) :
    ∀ c ∈ columns, c ∈ s.columns := by
  induction h with
  | nil => simp
  | cons first _ ih => exact List.forall_mem_cons.2 ⟨(find?_eq_some_iff.1 first).1, ih⟩

section
variable {keys : List String} (derived : s.join r keys = .ok t)
include derived

theorem mem_of_mem_join {c : Column} (h : c ∈ t.columns) : c ∈ s.columns ∨ c ∈ r.columns := by
  obtain ⟨-, columns, each, ht⟩ := join_eq_ok_iff.1 derived
  rw [ht, List.mem_append, List.mem_append] at h
  obtain (h | h) | h := h
  · have found : List.Forall₂ (fun name c => s.find? name = some c) keys columns :=
      each.imp fun _ _ hk => (keyColumn_eq_ok_iff.1 hk).1
    exact .inl (mem_of_found found c h)
  · exact .inl (mem_without.1 h).1
  · exact .inr (mem_without.1 h).1

/-- A key means a column on both sides. -/
theorem key_of_join {key : String} (h : key ∈ keys) :
    ∃ c d, s.find? key = some c ∧ r.find? key = some d ∧ c ∈ t.columns := by
  obtain ⟨-, columns, each, ht⟩ := join_eq_ok_iff.1 derived
  obtain ⟨c, hmem, hk⟩ := exists_of_mem_left each h
  obtain ⟨hc, d, hd, -⟩ := keyColumn_eq_ok_iff.1 hk
  refine ⟨c, d, hc, hd, ?_⟩
  rw [ht, List.mem_append, List.mem_append]
  exact .inl (.inl hmem)

theorem has_of_join {key : String} (h : key ∈ keys) : s.has key = true ∧ r.has key = true := by
  obtain ⟨c, d, hc, hd, -⟩ := key_of_join derived h
  simp [has, hc, hd]

/-- Every column of the left side is a column of the join. -/
theorem mem_join_of_left {c : Column} (h : c ∈ s.columns) : c ∈ t.columns := by
  by_cases hk : ∃ key ∈ keys, SameName key c.id
  · obtain ⟨key, hkey, same⟩ := hk
    obtain ⟨d, -, hd, -, ht⟩ := key_of_join derived hkey
    have found : s.find? key = some c := find?_eq_some_iff.2 ⟨h, same.symm⟩
    rw [found] at hd
    rwa [Option.some.inj hd]
  · obtain ⟨-, columns, -, ht⟩ := join_eq_ok_iff.1 derived
    rw [ht, List.mem_append, List.mem_append]
    refine .inl (.inr (mem_without.2 ⟨h, fun key hkey same => hk ⟨key, hkey, same⟩⟩))

/-- A column of the join that the left side has by name is a column of the left side. -/
theorem mem_left_of_has {c : Column} (h : c ∈ t.columns) (has : s.has c.id = true) :
    c ∈ s.columns := by
  obtain ⟨d, hd, same⟩ := has_iff.1 has
  rwa [← eq_of_sameName (mem_join_of_left derived hd) h same]

/-- The other columns of the right side are none of the left side. -/
theorem not_has_of_mem_without {c : Column} (h : c ∈ r.without keys) : s.has c.id = false := by
  rw [← Bool.not_eq_true]
  intro has
  obtain ⟨-, columns, each, ht⟩ := join_eq_ok_iff.1 derived
  have nodup : (columns ++ s.without keys ++ r.without keys).Nodup := ht ▸ t.ids_distinct.of_map
  have mem : c ∈ t.columns := by
    rw [ht]
    exact List.mem_append_right _ h
  have left : c ∈ s.without keys :=
    mem_without.2 ⟨mem_left_of_has derived mem has, (mem_without.1 h).2⟩
  exact (List.nodup_append.1 nodup).2.2 c (List.mem_append_right _ left) c h rfl

theorem mem_right_of_not_has {c : Column} (h : c ∈ t.columns) (has : s.has c.id = false) :
    c ∈ r.columns := by
  obtain hs | hr := mem_of_mem_join derived h
  · exact absurd (SameName.refl _) (has_eq_false_iff.1 has c hs)
  · exact hr

end

end Crosstab.Schema
