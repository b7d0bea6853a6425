import Mathlib.Data.List.Nodup
import Crosstab.Proofs.Outcome
import Crosstab.Query.Rules

namespace Crosstab

theorem sameName_congr {a b c : String} (h : SameName a b) : SameName c a ↔ SameName c b :=
  ⟨fun k => k.trans h, fun k => k.trans h.symm⟩

/-! ## Numbered names -/

theorem toLower_of_isDigit {c : Char} (h : c.isDigit = true) : c.toLower = c := by
  simp only [Char.isDigit, Bool.and_eq_true, decide_eq_true_eq, ge_iff_le] at h
  have : ¬ (c.val ≥ 'A'.val ∧ c.val ≤ 'Z'.val) := by
    rintro ⟨low, -⟩
    have a := UInt32.le_iff_toNat_le.1 low
    have b := UInt32.le_iff_toNat_le.1 h.2
    simp at a b
    omega
  unfold Char.toLower
  split
  · next hu => exact absurd hu this
  · rfl

theorem foldCase_numbered (stem : String) (n : Nat) :
    foldCase (stem ++ toString n) = foldCase stem ++ Nat.toDigits 10 n := by
  have digits : (Nat.toDigits 10 n).map Char.toLower = Nat.toDigits 10 n := by
    conv_rhs => rw [← List.map_id (Nat.toDigits 10 n)]
    apply List.map_congr_left
    intro c hc
    exact toLower_of_isDigit (Nat.isDigit_of_mem_toDigits (by decide) (by decide) hc)
  simp [foldCase, digits]

/-- Two names with one stem and different numbers differ. -/
theorem sameName_numbered {stem : String} {m n : Nat} :
    SameName (stem ++ toString m) (stem ++ toString n) ↔ m = n := by
  constructor
  · intro h
    have h : foldCase (stem ++ toString m) = foldCase (stem ++ toString n) := h
    rw [foldCase_numbered, foldCase_numbered] at h
    have digits := List.append_cancel_left h
    rw [← Nat.ofDigitChars_ten_toDigits (n := m), digits, Nat.ofDigitChars_ten_toDigits]
  · rintro rfl
    exact SameName.refl _

/-! ## The column that a name means -/

namespace Schema

variable {s : Schema} {c d : Column} {name : String}

theorem eq_of_sameName (hc : c ∈ s.columns) (hd : d ∈ s.columns) (h : SameName c.id d.id) :
    c = d :=
  List.inj_on_of_nodup_map s.ids_distinct hc hd h

theorem find?_eq_some_iff : s.find? name = some c ↔ c ∈ s.columns ∧ SameName c.id name := by
  constructor
  · intro h
    exact ⟨List.mem_of_find?_eq_some h, by simpa using List.find?_some h⟩
  · rintro ⟨hc, hn⟩
    cases h : s.find? name with
    | none =>
      have := List.find?_eq_none.1 h c hc
      simp [hn] at this
    | some d =>
      have hd : SameName d.id name := by simpa using List.find?_some h
      rw [eq_of_sameName (List.mem_of_find?_eq_some h) hc (hd.trans hn.symm)]

theorem find?_self (hc : c ∈ s.columns) : s.find? c.id = some c :=
  find?_eq_some_iff.2 ⟨hc, SameName.refl _⟩

theorem has_iff : s.has name = true ↔ ∃ c ∈ s.columns, SameName c.id name := by
  simp only [has, Option.isSome_iff_exists, find?_eq_some_iff]

theorem has_of_mem (hc : c ∈ s.columns) : s.has c.id = true :=
  has_iff.2 ⟨c, hc, SameName.refl _⟩

/-- What a schema has, a schema with the same ids has too. -/
theorem has_mono {t : Schema} (sub : ∀ c ∈ s.columns, ∃ d ∈ t.columns, d.id = c.id) (name : String)
    (h : s.has name = true) : t.has name = true := by
  obtain ⟨c, hc, same⟩ := has_iff.1 h
  obtain ⟨d, hd, id⟩ := sub c hc
  exact has_iff.2 ⟨d, hd, id ▸ same⟩

theorem has_of_subset {t : Schema} (sub : ∀ c ∈ s.columns, c ∈ t.columns) (name : String)
    (h : s.has name = true) : t.has name = true :=
  has_mono (fun c hc => ⟨c, sub c hc, rfl⟩) name h

theorem has_eq_false_iff : s.has name = false ↔ ∀ c ∈ s.columns, ¬ SameName c.id name := by
  simp [← Bool.not_eq_true, has_iff]

theorem lookup_eq_ok_iff {context : Operator} :
    s.lookup context name = .ok c ↔ s.find? name = some c := by
  unfold lookup
  split <;> simp_all

theorem type?_eq_some_iff {type : DataType} :
    s.type? name = some type ↔ ∃ c, s.find? name = some c ∧ c.type = type := by
  simp [type?]

theorem type?_of_mem (hc : c ∈ s.columns) : s.type? c.id = some c.type :=
  type?_eq_some_iff.2 ⟨c, find?_self hc, rfl⟩

/-- A list of columns becomes a schema exactly if it is the list of one. -/
theorem build_eq_ok_iff {context : Operator} {columns : List Column} {t : Schema} :
    build context columns = .ok t ↔ t.columns = columns := by
  unfold build ofColumns
  rw [mapError_eq_ok_iff]
  split
  · next e h =>
    constructor
    · intro k; cases k
    · rintro rfl
      have := (fault?_eq_none_iff [] t.columns).2 ⟨t.ids_nonempty, by simp, t.ids_distinct⟩
      rw [this] at h
      cases h
  · constructor
    · intro k; cases k; rfl
    · rintro rfl; rfl

end Schema

end Crosstab
