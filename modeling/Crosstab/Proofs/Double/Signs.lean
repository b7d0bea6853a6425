import Crosstab.Scalar

namespace Crosstab

namespace Double

theorem finite_zero {negative : Bool} {scale : Int} (h : Canonical 0 scale) :
    Double.finite negative 0 scale h = zero negative := by
  obtain rfl : scale = -1074 := h.2.2.2.resolve_left (by decide)
  rfl

/-- The number, and zero without a sign. -/
def unsigned (v : Double) : Double := if v = zero true then zero false else v

theorem unsigned_zero (negative : Bool) : (zero negative).unsigned = zero false := by
  cases negative <;> decide

theorem unsigned_of_ne {v : Double} (h : v ≠ zero true) : v.unsigned = v := if_neg h

/-- What is not a number stays so without a sign. -/
theorem unsigned_eq_nan_iff {v : Double} : v.unsigned = nan ↔ v = nan := by
  by_cases zero : v = .zero true
  · rw [zero, unsigned_zero]
    exact ⟨nofun, nofun⟩
  · rw [unsigned_of_ne zero]

theorem forall_ne_nan_of_unsigned {l r : List Double} (same : l.map unsigned = r.map unsigned)
    (numbers : ∀ v ∈ l, v ≠ nan) : ∀ v ∈ r, v ≠ nan := by
  intro v hv invalid
  have mem : nan ∈ l.map unsigned := by
    rw [same]
    exact List.mem_map.2 ⟨v, hv, unsigned_eq_nan_iff.2 invalid⟩
  obtain ⟨u, hu, eq⟩ := List.mem_map.1 mem
  exact numbers u hu (unsigned_eq_nan_iff.1 eq)

theorem numEq_self_iff {v : Double} : v.numEq v = true ↔ v ≠ nan := by
  cases v <;> simp [numEq]

theorem numEq_zero (a b : Bool) : (zero a).numEq (zero b) = true := by
  cases a <;> cases b <;> decide

/-- Numbers are equal if they are the same without the sign of a zero. -/
theorem numEq_iff {v w : Double} : v.numEq w = true ↔ v.unsigned = w.unsigned ∧ v ≠ nan := by
  constructor
  · intro h
    cases v with
    | nan => cases h
    | infinity a =>
      cases w with
      | infinity b =>
        rw [eq_of_beq h]
        exact ⟨rfl, nofun⟩
      | nan | finite => cases h
    | finite a m e canonical =>
      cases w with
      | nan | infinity => cases h
      | finite b n f canonical' =>
        refine ⟨?_, nofun⟩
        simp only [numEq, Bool.or_eq_true, Bool.and_eq_true, beq_iff_eq] at h
        obtain ⟨rfl, rfl⟩ | ⟨⟨rfl, rfl⟩, rfl⟩ := h
        · rw [finite_zero, finite_zero, unsigned_zero, unsigned_zero]
        · rfl
  · rintro ⟨same, number⟩
    by_cases hv : v = zero true
    · subst hv
      by_cases hw : w = zero true
      · rw [hw]
        exact numEq_zero _ _
      · rw [unsigned_zero, unsigned_of_ne hw] at same
        rw [← same]
        exact numEq_zero _ _
    · rw [unsigned_of_ne hv] at same
      by_cases hw : w = zero true
      · rw [hw, unsigned_zero] at same
        rw [hw, same]
        exact numEq_zero _ _
      · rw [unsigned_of_ne hw] at same
        rw [← same]
        exact numEq_self_iff.2 number

end Double

namespace Scalar

def unsigned : Scalar → Scalar
  | real v => real v.unsigned
  | v => v

theorem unsigned_of_ne {v : Scalar} (h : v ≠ .real (.zero true)) : v.unsigned = v := by
  cases v with
  | real v => exact congrArg real (Double.unsigned_of_ne fun zero => h (congrArg real zero))
  | null | bool | int | text => rfl

/-- Values are equal if they are the same without the sign of a zero. -/
theorem equals_iff {v w : Scalar} :
    v.equals w = true ↔ v.unsigned = w.unsigned ∧ v ≠ .real .nan := by
  cases v with
  | real v =>
    cases w with
    | real w => simp [equals, unsigned, Double.numEq_iff]
    | null | bool | int | text => simp [equals, unsigned]
  | null | bool | int | text => cases w <;> simp [equals, unsigned]

theorem eq_of_equals {v w : Scalar} (h : v.equals w = true) (hv : v ≠ .real (.zero true))
    (hw : w ≠ .real (.zero true)) : v = w := by
  have same := (equals_iff.1 h).1
  rwa [unsigned_of_ne hv, unsigned_of_ne hw] at same

end Scalar

end Crosstab
