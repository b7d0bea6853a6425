import Mathlib.Data.Nat.Cast.Field
import Crosstab.Proofs.Double.Numerals
import Crosstab.Proofs.Text.Trim
import Crosstab.Store.Cell

/-!
# Conversion to integers

Values and stored cells that are taken to an integer column keep their number, or the conversion
fails. There is one exception: a whole real beyond the range of 64 bits becomes the integer at that
end of the range.
-/

namespace Crosstab

namespace Double

def rational? : Double → Option ℚ
  | finite negative mantissa scale _ =>
    some (if negative then -(mantissa * 2 ^ scale) else mantissa * 2 ^ scale)
  | _ => none

/-- A whole real beyond the range of 64 bits, and the integer at that end of the range. -/
def ClampedTo (v : Double) (i : Int64) : Prop :=
  ∃ z : Int, v.rational? = some (z : ℚ) ∧
    (z < Int64.minValue.toInt ∧ i = Int64.minValue ∨ Int64.maxValue.toInt < z ∧ i = Int64.maxValue)

section
variable {m : Nat} {s : Int}

/-- A number without a fraction is its whole part. -/
theorem cast_wholePart (whole : m % pow2 (-s).toNat = 0) : (wholePart m s : ℚ) = m * 2 ^ s := by
  have pos : (pow2 (-s).toNat : ℚ) ≠ 0 := Nat.cast_ne_zero.2 (pow2_pos _).ne'
  have divides : pow2 (-s).toNat ∣ m * pow2 s.toNat :=
    Dvd.dvd.mul_right (Nat.dvd_of_mod_eq_zero whole) _
  rw [wholePart, Nat.cast_div divides pos, zpow_eq_div, Nat.cast_mul, mul_div_assoc]

/-- Whether there is a fraction is seen at the bits below the point. -/
theorem mod_eq_zero_of_eq_natCast {n : Nat} (h : (m : ℚ) * 2 ^ s = n) :
    m % pow2 (-s).toNat = 0 := by
  by_cases above : 0 ≤ s
  · have none : (-s).toNat = 0 := by omega
    rw [none]
    exact Nat.mod_one m
  · have zero : s.toNat = 0 := by omega
    have pos : (pow2 (-s).toNat : ℚ) ≠ 0 := Nat.cast_ne_zero.2 (pow2_pos _).ne'
    rw [zpow_eq_div, zero, pow2, Nat.pow_eq, pow_zero, Nat.cast_one, mul_one_div,
      div_eq_iff pos] at h
    have scaled : m = n * pow2 (-s).toNat := by exact_mod_cast h
    rw [scaled]
    exact Nat.mul_mod_left _ _

end

/-- The integer of a double is its number. -/
theorem rational?_of_toInt? {v : Double} {i : Int} (h : v.toInt? = some i) :
    v.rational? = some (i : ℚ) := by
  cases v with
  | nan | infinity => cases h
  | finite negative m s canonical =>
    obtain ⟨whole, equal⟩ := Option.ite_none_right_eq_some.1 h
    cases equal
    rw [rational?, ← cast_wholePart whole]
    cases negative <;> simp

theorem exists_toInt?_of_rational? {v : Double} {i : Int} (h : v.rational? = some (i : ℚ)) :
    ∃ j, v.toInt? = some j := by
  cases v with
  | nan | infinity => cases h
  | finite negative m s canonical =>
    have size : (m : ℚ) * 2 ^ s = i.natAbs := by
      have nonneg : (0 : ℚ) ≤ m * 2 ^ s := mul_nonneg (Nat.cast_nonneg _) (zpow_nonneg zero_le_two _)
      have equal := Option.some.inj h
      rw [Nat.cast_natAbs, Int.cast_abs, ← equal]
      cases negative with
      | false => exact (abs_of_nonneg nonneg).symm
      | true => rw [if_pos rfl, abs_neg, abs_of_nonneg nonneg]
    exact ⟨_, if_pos (mod_eq_zero_of_eq_natCast size)⟩

/-- The doubles without a fraction are the integers. -/
theorem toInt?_eq_some_iff {v : Double} {i : Int} :
    v.toInt? = some i ↔ v.rational? = some (i : ℚ) := by
  constructor
  · exact rational?_of_toInt?
  · intro h
    obtain ⟨j, whole⟩ := exists_toInt?_of_rational? h
    have same : (j : ℚ) = i := Option.some.inj ((rational?_of_toInt? whole).symm.trans h)
    rw [whole, Int.cast_inj.1 same]

end Double

theorem toInt_clampInt64 (z : Int) :
    (clampInt64 z).toInt = max Int64.minValue.toInt (min z Int64.maxValue.toInt) := by
  have least : Int64.minValue.toInt = -2 ^ 63 := by decide
  have greatest : Int64.maxValue.toInt = 2 ^ 63 - 1 := by decide
  apply Int64.toInt_ofInt_of_le <;> omega

theorem clampInt64_eq_iff {z : Int} {i : Int64} :
    clampInt64 z = i ↔ z = i.toInt ∨ z < Int64.minValue.toInt ∧ i = Int64.minValue ∨
      Int64.maxValue.toInt < z ∧ i = Int64.maxValue := by
  have low := i.minValue_le_toInt
  have high := i.toInt_le
  rw [← Int64.toInt_inj, toInt_clampInt64, ← Int64.toInt_inj, ← Int64.toInt_inj]
  omega

namespace Double

/-- A real beyond the range is not the integer at the end of the range. -/
theorem ClampedTo.ne {v : Double} {i : Int64} (h : v.ClampedTo i) :
    v.rational? ≠ some (i.toInt : ℚ) := by
  obtain ⟨z, number, beyond⟩ := h
  intro same
  have equal : z = i.toInt := Int.cast_inj.1 (Option.some.inj (number.symm.trans same))
  rcases beyond with ⟨low, rfl⟩ | ⟨high, rfl⟩ <;> omega

/-- What becomes of a real in an integer column. -/
theorem clampInt64_toInt?_iff {v : Double} {i : Int64} :
    (∃ z, v.toInt? = some z ∧ clampInt64 z = i) ↔
      v.rational? = some (i.toInt : ℚ) ∨ v.ClampedTo i := by
  simp only [toInt?_eq_some_iff, clampInt64_eq_iff]
  constructor
  · rintro ⟨z, whole, rfl | beyond⟩
    · exact .inl whole
    · exact .inr ⟨z, whole, beyond⟩
  · rintro (exact | ⟨z, whole, beyond⟩)
    · exact ⟨_, exact, .inl rfl⟩
    · exact ⟨z, whole, .inr beyond⟩

end Double

/-! ## The number of a value -/

/-- The number that a value is: the integer, the number of the double, or the decimal integer that a
text is between blank characters. -/
inductive Scalar.Denotes : Scalar → ℚ → Prop
  | int (i : Int64) : Denotes (.int i) i.toInt
  | real {v : Double} {q : ℚ} (number : v.rational? = some q) : Denotes (.real v) q
  | text {s : String} {front digits back : List Char} {i : Int}
      (parts : s.toList = front ++ (digits ++ back))
      (before : ∀ c ∈ front, Text.isBlank c = true) (after : ∀ c ∈ back, Text.isBlank c = true)
      (decimal : DenotesInt digits i) : Denotes (.text s) i

/-- The number that a stored cell is. -/
inductive Cell.Denotes : Cell → ℚ → Prop
  | integer (i : Int64) : Denotes (.integer i) i.toInt
  | real {v : Double} {q : ℚ} (number : v.rational? = some q) : Denotes (.real v) q
  | text {s : String} {q : ℚ} (number : Scalar.Denotes (.text s) q) : Denotes (.text s) q

namespace DenotesInt

theorem numeric {cs : List Char} {i : Int} (h : DenotesInt cs i) :
    ∀ c ∈ cs, isNumeric c = true := by
  obtain ⟨signed, -, all⟩ := h
  intro c hc
  rcases List.mem_append.1 hc with mem | mem
  · cases signed with
    | none => cases mem
    | plus | minus =>
      cases List.mem_singleton.1 mem
      rfl
  · simp [isNumeric, all c mem]

end DenotesInt

namespace Scalar

variable {s : String} {v : Scalar} {w : Scalar} {p q : ℚ}

theorem not_denotes_null : ¬ null.Denotes q := by
  intro h
  cases h

theorem not_denotes_bool {b : Bool} : ¬ (bool b).Denotes q := by
  intro h
  cases h

theorem denotes_int_iff {i : Int64} : (int i).Denotes q ↔ q = i.toInt := by
  constructor
  · rintro ⟨⟩
    rfl
  · rintro rfl
    exact .int i

theorem denotes_real_iff {d : Double} : (real d).Denotes q ↔ d.rational? = some q := by
  constructor
  · rintro ⟨⟩
    assumption
  · exact .real

/-- The number of a text is read from what is left of it without its blank ends. -/
theorem denotes_text_iff :
    (text s).Denotes q ↔ ∃ i : Int, q = i ∧ DenotesInt (Text.trim s.toList) i := by
  constructor
  · intro h
    cases h with
    | text parts before after decimal =>
      have plain (c : Char) (hc : c ∈ _) : Text.isBlank c = false :=
        Text.isBlank_of_isNumeric (decimal.numeric c hc)
      refine ⟨_, rfl, ?_⟩
      rwa [parts, Text.trim_blanks before after plain]
  · rintro ⟨i, rfl, decimal⟩
    obtain ⟨front, back, before, after, parts⟩ := Text.exists_blanks s.toList
    exact .text parts before after decimal

/-- No value is two numbers. -/
theorem Denotes.unique (hp : v.Denotes p) (hq : v.Denotes q) : p = q := by
  cases v with
  | null | bool => cases hp
  | int i => rw [denotes_int_iff.1 hp, denotes_int_iff.1 hq]
  | real d => exact Option.some.inj ((denotes_real_iff.1 hp).symm.trans (denotes_real_iff.1 hq))
  | text s =>
    obtain ⟨i, rfl, hi⟩ := denotes_text_iff.1 hp
    obtain ⟨j, rfl, hj⟩ := denotes_text_iff.1 hq
    have same := (readInt?_eq_some_iff.2 hi).symm.trans (readInt?_eq_some_iff.2 hj)
    rw [Option.some.inj same]

/-! ## Conversions -/

theorem coerceReal_integer_iff {d : Double} : coerceReal d .integer = .ok w ↔
    ∃ i : Int64, w = .int i ∧ ((real d).Denotes i.toInt ∨ d.ClampedTo i) := by
  simp only [coerceReal, denotes_real_iff, ← Double.clampInt64_toInt?_iff]
  cases d.toInt? with
  | none => simp
  | some z => simp [eq_comm]

theorem coerceText_integer_iff : coerceText s .integer = .ok w ↔
    ∃ i : Int64, w = .int i ∧ (text s).Denotes i.toInt := by
  have number (i : Int64) : (text s).Denotes i.toInt ↔ readInt64? (Text.trim s.toList) = some i := by
    rw [readInt64?_eq_some_iff, denotes_text_iff]
    simp only [Int.cast_inj, exists_eq_left']
  simp only [coerceText, number]
  cases readInt64? (Text.trim s.toList) with
  | none => simp
  | some i => simp [eq_comm]

/-- What a value becomes in an integer column. -/
theorem coerce_integer_iff : v.coerce .integer = .ok w ↔
    v = .null ∧ w = .null ∨ ∃ i : Int64, w = .int i ∧
      (v.Denotes i.toInt ∨ ∃ d, v = .real d ∧ d.ClampedTo i) := by
  cases v with
  | null => simp [coerce, not_denotes_null, eq_comm]
  | bool b => simp [coerce, not_denotes_bool]
  | int i => simp [coerce, denotes_int_iff, Int64.toInt_inj, eq_comm]
  | real d => simpa [coerce] using coerceReal_integer_iff
  | text s => simpa [coerce] using coerceText_integer_iff

end Scalar

namespace Cell

variable {c : Cell} {w : Scalar} {q : ℚ}

theorem not_denotes_null : ¬ null.Denotes q := by
  intro h
  cases h

theorem not_denotes_blob {bytes : List UInt8} : ¬ (blob bytes).Denotes q := by
  intro h
  cases h

theorem denotes_integer_iff {i : Int64} : (integer i).Denotes q ↔ q = i.toInt := by
  constructor
  · rintro ⟨⟩
    rfl
  · rintro rfl
    exact .integer i

theorem denotes_real_iff {d : Double} : (real d).Denotes q ↔ d.rational? = some q := by
  constructor
  · rintro ⟨⟩
    assumption
  · exact .real

theorem denotes_text_iff {s : String} : (text s).Denotes q ↔ (Scalar.text s).Denotes q := by
  constructor
  · rintro ⟨⟩
    assumption
  · exact .text

/-- What a stored cell is read as in an integer column. -/
theorem toScalar_integer_iff : c.toScalar .integer = .ok w ↔
    c = .null ∧ w = .null ∨ ∃ i : Int64, w = .int i ∧
      (c.Denotes i.toInt ∨ ∃ d, c = .real d ∧ d.ClampedTo i) := by
  cases c with
  | null => simp [toScalar, not_denotes_null, eq_comm]
  | integer i => simp [toScalar, denotes_integer_iff, Int64.toInt_inj, eq_comm]
  | real d =>
    have alike : (real d).toScalar .integer = .ok w ↔ Scalar.coerceReal d .integer = .ok w := by
      simp only [toScalar, Scalar.coerceReal]
      cases d.toInt? <;> simp
    rw [alike, Scalar.coerceReal_integer_iff]
    simp [denotes_real_iff, Scalar.denotes_real_iff]
  | text s =>
    rw [toScalar, mapError_eq_ok_iff, Scalar.coerce_integer_iff]
    simp [denotes_text_iff]
  | blob bytes => simp [toScalar, not_denotes_blob]

/-- A conversion that gives nothing but null, numbers and clamped reals is exact where no real is
clamped. -/
theorem exact_iff {becomes : Scalar → Prop} {null : Prop} {denotes clamped : Int64 → Prop}
    (spec : ∀ w, becomes w ↔ null ∧ w = .null ∨ ∃ i, w = .int i ∧ (denotes i ∨ clamped i))
    (apart : ∀ i, clamped i → ¬ denotes i) :
    (∀ i, becomes (.int i) → denotes i) ↔ ¬ ∃ i, clamped i := by
  constructor
  · rintro exact ⟨i, beyond⟩
    have number := exact i ((spec _).2 (.inr ⟨i, rfl, .inr beyond⟩))
    exact apart i beyond number
  · intro inside i became
    rcases (spec _).1 became with ⟨-, null⟩ | ⟨j, same, number | beyond⟩
    · cases null
    · cases same
      exact number
    · exact absurd ⟨j, beyond⟩ inside

/-- A value that is taken to an integer column, and a stored cell that is read as one, is null and
stays null, or becomes the integer that it is, or fails; but a whole real beyond the range of 64 bits
becomes the integer at that end of the range. These reals are the only values and cells that become
an integer that they are not. -/
theorem integers_exact (v : Scalar) (c : Cell) (w : Scalar) :
    (v.coerce .integer = .ok w ↔
      v = .null ∧ w = .null ∨ ∃ i : Int64, w = .int i ∧
        (v.Denotes i.toInt ∨ ∃ d, v = .real d ∧ d.ClampedTo i)) ∧
    (c.toScalar .integer = .ok w ↔
      c = .null ∧ w = .null ∨ ∃ i : Int64, w = .int i ∧
        (c.Denotes i.toInt ∨ ∃ d, c = .real d ∧ d.ClampedTo i)) ∧
    ((∀ i, v.coerce .integer = .ok (.int i) → v.Denotes i.toInt) ↔
      ¬ ∃ i d, v = .real d ∧ d.ClampedTo i) ∧
    ((∀ i, c.toScalar .integer = .ok (.int i) → c.Denotes i.toInt) ↔
      ¬ ∃ i d, c = .real d ∧ d.ClampedTo i) := by
  refine ⟨Scalar.coerce_integer_iff, toScalar_integer_iff, ?_, ?_⟩
  · apply exact_iff fun _ => Scalar.coerce_integer_iff
    rintro i ⟨d, rfl, clamped⟩ number
    exact clamped.ne (Scalar.denotes_real_iff.1 number)
  · apply exact_iff fun _ => toScalar_integer_iff
    rintro i ⟨d, rfl, clamped⟩ number
    exact clamped.ne (denotes_real_iff.1 number)

/-- The least whole double beyond the range becomes the greatest integer, which is another number.
The same number as a text is refused. -/
theorem integers_not_exact : ∃ d : Double, d.rational? = some (2 ^ 63) ∧
    (Scalar.real d).coerce .integer = .ok (.int Int64.maxValue) ∧
    ¬ (Scalar.real d).Denotes Int64.maxValue.toInt ∧
    (real d).toScalar .integer = .ok (.int Int64.maxValue) ∧
    ¬ (real d).Denotes Int64.maxValue.toInt ∧
    (Scalar.text "9223372036854775808").coerce .integer =
      .error (.notInteger "9223372036854775808") := by
  have number : (Double.finite false (pow2 52) 11 (by decide)).rational? = some (2 ^ 63) := by
    rw [Double.rational?, pow2]
    norm_num
  have other : (2 ^ 63 : ℚ) ≠ Int64.maxValue.toInt := by
    rw [show Int64.maxValue.toInt = 2 ^ 63 - 1 by decide]
    norm_num
  refine ⟨_, number, by decide, ?_, by decide, ?_, by decide⟩
  · intro denotes
    exact other (Option.some.inj (number.symm.trans (Scalar.denotes_real_iff.1 denotes)))
  · intro denotes
    exact other (Option.some.inj (number.symm.trans (denotes_real_iff.1 denotes)))

end Cell

end Crosstab
