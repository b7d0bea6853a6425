import Crosstab.Proofs.Pivot.Children
import Crosstab.Proofs.Pivot.Expansion

/-!
# Reserved names

A tree over a base query adds columns of its own, and a base query may not have columns with their
names. The check compares the names that a tree gives once as names, without regard to case, but the
stems of the names that it numbers as they are written. So a base column can get past the check and
still have the name of a column that the tree adds: exactly if it is one of the numbered names with
its stem in another case. Among these only the path columns are in the way of the root.
-/

namespace Crosstab

/-! ## Names with numbers -/

theorem toLower_eq_of_isDigit {c : Char} (h : c.toLower.isDigit = true) : c.toLower = c := by
  unfold Char.toLower at h ⊢
  by_cases upper : c.val ≥ 'A'.val ∧ c.val ≤ 'Z'.val
  · exfalso
    rw [dif_pos upper] at h
    simp only [Char.isDigit, Bool.and_eq_true, decide_eq_true_eq] at h
    have low := UInt32.le_iff_toNat_le.1 upper.1
    have high := UInt32.le_iff_toNat_le.1 upper.2
    have digit := UInt32.le_iff_toNat_le.1 h.2
    simp at low high digit
    omega
  · rw [dif_neg upper]

/-- Digits have no case. -/
theorem eq_of_map_toLower {cs digits : List Char} (h : cs.map Char.toLower = digits)
    (all : ∀ c ∈ digits, c.isDigit = true) : cs = digits := by
  rw [← h]
  conv_lhs => rw [← List.map_id cs]
  apply List.map_congr_left
  intro c hc
  have digit := all c.toLower (h ▸ List.mem_map_of_mem hc)
  exact (toLower_eq_of_isDigit digit).symm

/-- A name with a number is spelled with the same number, and its stem in any case. -/
theorem sameName_numbered_iff {id stem : String} {n : Nat} :
    SameName id (stem ++ toString n) ↔
      ∃ spelling, id = spelling ++ toString n ∧ SameName spelling stem := by
  constructor
  · intro same
    have folded : foldCase id = foldCase (stem ++ toString n) := same
    rw [foldCase_numbered, foldCase, List.map_eq_append_iff] at folded
    obtain ⟨letters, number, split, spelled, digits⟩ := folded
    have number : number = Nat.toDigits 10 n :=
      eq_of_map_toLower digits fun c hc => Nat.isDigit_of_mem_toDigits (by decide) (by decide) hc
    refine ⟨String.ofList letters, ?_, ?_⟩
    · apply String.toList_injective
      rw [split, number]
      simp
    · rw [SameName, foldCase, String.toList_ofList]
      exact spelled
  · rintro ⟨spelling, rfl, same⟩
    have folded : foldCase spelling = foldCase stem := same
    rw [SameName, foldCase_numbered, foldCase_numbered, folded]

theorem beginsWith_numbered (stem : String) (n : Nat) :
    beginsWith (stem ++ toString n) stem = true := by
  simp [beginsWith]

/-! ## The names that a tree adds -/

/-- All names that a tree with a number of pivots adds to those of its base query. -/
def addedNames (pivots : Nat) : List String :=
  singleNames ++ (List.range pivots).map pathColumn ++
    (List.range pivots).map (fun i => rankColumn (i + 1)) ++
    (List.range pivots).map (fun i => levelColumn (i + 1))

/-- A name is a numbered one of a tree with its stem in another case. -/
def Respells (id name : String) : Prop :=
  ∃ stem ∈ numberedStems, ∃ (n : Nat) (spelling : String), name = stem ++ toString n ∧
    id = spelling ++ toString n ∧ SameName spelling stem ∧ spelling ≠ stem

theorem mem_addedNames_cases {name : String} {pivots : Nat} (h : name ∈ addedNames pivots) :
    name ∈ singleNames ∨ ∃ stem ∈ numberedStems, ∃ n : Nat, name = stem ++ toString n := by
  simp only [addedNames, List.mem_append, List.mem_map, List.mem_range] at h
  obtain ((single | ⟨n, -, rfl⟩) | ⟨n, -, rfl⟩) | ⟨n, -, rfl⟩ := h
  · exact .inl single
  · exact .inr ⟨_, by simp [numberedStems], n, rfl⟩
  · exact .inr ⟨_, by simp [numberedStems], n + 1, rfl⟩
  · exact .inr ⟨_, by simp [numberedStems], n + 1, rfl⟩

theorem pathColumn_mem_addedNames {n pivots : Nat} (h : n < pivots) :
    pathColumn n ∈ addedNames pivots := by
  simp only [addedNames, List.mem_append, List.mem_map, List.mem_range]
  exact .inl (.inl (.inr ⟨n, h, rfl⟩))

/-- A name that is not reserved is one that a tree adds only if it is spelled differently. -/
theorem sameName_added_iff {id name : String} {pivots : Nat} (passes : isReserved id = false)
    (added : name ∈ addedNames pivots) : SameName id name ↔ Respells id name := by
  obtain ⟨single, written⟩ := isReserved_eq_false_iff.1 passes
  constructor
  · intro same
    obtain once | ⟨stem, listed, n, rfl⟩ := mem_addedNames_cases added
    · exact absurd same (single name once)
    · obtain ⟨spelling, rfl, stemSame⟩ := sameName_numbered_iff.1 same
      refine ⟨stem, listed, n, spelling, rfl, rfl, stemSame, ?_⟩
      rintro rfl
      have begins := beginsWith_numbered spelling n
      rw [written spelling listed] at begins
      cases begins
  · rintro ⟨stem, -, n, spelling, rfl, rfl, same, -⟩
    exact sameName_numbered_iff.2 ⟨spelling, rfl, same⟩

namespace PivotTree

variable {t : PivotTree} {base : Query} {spec : PivotSpec}

/-- There is a root if and only if no base column is named like a path column of the tree. -/
theorem exists_rootQuery_iff (made : make base spec = .ok t) :
    (∃ q, t.rootQuery = .ok q) ↔
      ∀ c ∈ base.schema.columns, ∀ n < t.depth, ¬ SameName c.id (pathColumn n) := by
  constructor
  · intro ⟨q, hq⟩ c hc n hn
    obtain ⟨-, -, -, extended, -⟩ := make_eq_ok made
    obtain ⟨groups, -, finished⟩ := rootQuery_eq_ok_iff.1 hq
    exact not_sameName_of_names (names_finish finished) (Query.mem_extend extended hc) hn
  · intro paths
    obtain ⟨q, hq, -⟩ := exists_rootQuery_of_free (sound_of_make made) (free_of_make made paths)
    exact ⟨q, hq⟩

/-- If a layout is accepted over a base query, a base column has the name of a column that the tree
adds exactly if it is spelled like a numbered one with its stem in another case. The root query can
be made exactly if no base column does so with a path column, so it can be made if the names that
the tree adds are all new. -/
theorem clashes_of_make (made : make base spec = .ok t) :
    (∀ c ∈ base.schema.columns, ∀ name ∈ addedNames spec.pivotColumns.length,
      (SameName c.id name ↔ Respells c.id name)) ∧
    ((∃ q, t.rootQuery = .ok q) ↔ ∀ c ∈ base.schema.columns, ∀ n < spec.pivotColumns.length,
      ¬ SameName c.id (pathColumn n)) ∧
    ((∀ c ∈ base.schema.columns, ∀ name ∈ addedNames spec.pivotColumns.length,
      ¬ SameName c.id name) → ∃ q, t.rootQuery = .ok q) := by
  have root := exists_rootQuery_iff made
  rw [depth_of_make made] at root
  refine ⟨?_, root, ?_⟩
  · intro c hc name added
    exact sameName_added_iff (isReserved_of_make made hc) added
  · intro new
    apply root.2
    intro c hc n hn
    exact new c hc _ (pathColumn_mem_addedNames hn)

theorem clashes_of_make_productSales : ∃ t, make productSales byRegion = .ok t ∧
    (∀ c ∈ productSales.schema.columns, ∀ name ∈ addedNames 2, ¬ SameName c.id name) ∧
    ∃ q, t.rootQuery = .ok q := by
  obtain ⟨t, made⟩ : ∃ t, make productSales byRegion = .ok t := ⟨_, rfl⟩
  have new : ∀ c ∈ productSales.schema.columns, ∀ name ∈ addedNames 2, ¬ SameName c.id name := by
    decide +kernel
  obtain ⟨-, -, root⟩ := clashes_of_make made
  exact ⟨t, made, new, root new⟩

/-- A column with the name of the path column in capitals gets past the check, and then there is no
root. -/
theorem rootQuery_error_capitalReadings : ∃ t, make capitalReadings readingsByGroup = .ok t ∧
    (∃ c ∈ capitalReadings.schema.columns,
      ∃ name ∈ addedNames readingsByGroup.pivotColumns.length, SameName c.id name) ∧
    t.rootQuery = .error (.build (.columnExists "_path0")) :=
  ⟨_, rfl, by decide +kernel, rfl⟩

end PivotTree

end Crosstab
