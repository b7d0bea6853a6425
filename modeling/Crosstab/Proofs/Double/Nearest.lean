import Crosstab.Proofs.Double.Literal

/-!
# Decimals are read as the nearest double

A quotient and a decimal are rounded to the double that is nearest to them, to the even one of two
that are equally near, and to an infinity beyond the range.
-/

namespace Crosstab.Double

/-- The double that `± z` is rounded to, for a `z` that is not negative: zero up to one half of the
least double, an infinity from one half beyond the greatest one, and the nearest double between. -/
inductive Nearest (negative : Bool) (z : ℚ) : Double → Prop
  | zero (small : z ≤ 2 ^ (-1075 : Int)) : Nearest negative z (zero negative)
  | finite {m : Nat} {s : Int} (canonical : Canonical m s) (pos : m ≠ 0) (near : RoundsTo m s z) :
      Nearest negative z (.finite negative m s canonical)
  | infinity (large : (2 ^ 54 - 1) * 2 ^ (970 : Int) ≤ z) : Nearest negative z (.infinity negative)

/-- A quotient is at most one half away from what it is rounded to, and less if that is odd. -/
theorem near_roundHalfEven {num den n : Nat} (pos : 0 < den) (h : roundHalfEven num den = n) :
    2 * n * den ≤ 2 * num + den ∧ 2 * num ≤ (2 * n + 1) * den ∧
      (n % 2 = 1 → 2 * n * den < 2 * num + den ∧ 2 * num < (2 * n + 1) * den) := by
  have whole := Nat.div_add_mod num den
  have rest := Nat.mod_lt num pos
  simp only [roundHalfEven] at h
  generalize num / den = q at *
  generalize num % den = r at *
  subst whole
  split at h
  · next up =>
    subst h
    have lower : 2 * (q + 1) * den = 2 * (den * q) + 2 * den := by ring
    have upper : (2 * (q + 1) + 1) * den = 2 * (den * q) + 3 * den := by ring
    rw [lower, upper]
    omega
  · next down =>
    subst h
    have lower : 2 * q * den = 2 * (den * q) := by ring
    have upper : (2 * q + 1) * den = 2 * (den * q) + den := by ring
    rw [lower, upper]
    omega

section
variable {m : Nat} {s : Int} {z : ℚ}

/-- A number is at most one half of the unit away from a multiple of it, and less if that is odd. -/
structure Near (m : Nat) (s : Int) (z : ℚ) : Prop where
  low : (2 * m - 1) * 2 ^ s ≤ 2 * z
  high : 2 * z ≤ (2 * m + 1) * 2 ^ s
  inside : m % 2 = 1 → (2 * m - 1) * 2 ^ s < 2 * z ∧ 2 * z < (2 * m + 1) * 2 ^ s

theorem near_scaled {num den : Nat} (hd : den ≠ 0)
    (h : roundHalfEven (num * pow2 (-s).toNat) (den * pow2 s.toNat) = m) :
    Near m s (num / den) := by
  have positive : (0 : ℚ) < den := Nat.cast_pos.2 (Nat.pos_of_ne_zero hd)
  have scaled : 0 < den * pow2 s.toNat := Nat.mul_pos (Nat.pos_of_ne_zero hd) (pow2_pos _)
  have two : (0 : ℚ) < pow2 (-s).toNat := Nat.cast_pos.2 (pow2_pos _)
  obtain ⟨low, high, inside⟩ := near_roundHalfEven scaled h
  have unit : (2 : ℚ) ^ s * pow2 (-s).toNat = pow2 s.toNat := by
    rw [zpow_eq_div, div_mul_cancel₀ _ two.ne']
  have quotient : (num : ℚ) / den * (den * pow2 (-s).toNat) = num * pow2 (-s).toNat := by
    rw [← mul_assoc, div_mul_cancel₀ _ positive.ne']
  have factor : (0 : ℚ) < den * pow2 (-s).toNat := mul_pos positive two
  have left : ((2 * m - 1) * 2 ^ s : ℚ) * (den * pow2 (-s).toNat) =
      2 * m * (den * pow2 s.toNat) - den * pow2 s.toNat := by rw [← unit]; ring
  have right : ((2 * m + 1) * 2 ^ s : ℚ) * (den * pow2 (-s).toNat) =
      (2 * m + 1) * (den * pow2 s.toNat) := by rw [← unit]; ring
  have middle : 2 * ((num : ℚ) / den) * (den * pow2 (-s).toNat) = 2 * (num * pow2 (-s).toNat) := by
    rw [mul_assoc, quotient]
  refine ⟨?_, ?_, fun odd => ⟨?_, ?_⟩⟩
  · refine le_of_mul_le_mul_right ?_ factor
    rw [left, middle, sub_le_iff_le_add]
    exact_mod_cast low
  · refine le_of_mul_le_mul_right ?_ factor
    rw [right, middle]
    exact_mod_cast high
  · refine lt_of_mul_lt_mul_right ?_ factor.le
    rw [left, middle, sub_lt_iff_lt_add]
    exact_mod_cast (inside odd).1
  · refine lt_of_mul_lt_mul_right ?_ factor.le
    rw [right, middle]
    exact_mod_cast (inside odd).2

theorem quarter_unit (s : Int) : (2 : ℚ) ^ s = 4 * 2 ^ (s - 2) := by
  rw [show s = 2 + (s - 2) by omega, zpow_add₀ two_ne_zero]
  norm_num

/-- Nearness at the scale of a double is what rounds to it, if the gap below is a whole unit or the
number is not below the double. -/
theorem Near.roundsTo (h : Near m s z) (pos : m ≠ 0)
    (power : m = pow2 52 → -1074 < s → m * 2 ^ s ≤ z) : RoundsTo m s z := by
  have unit : (0 : ℚ) < 2 ^ (s - 2) := zpow_pos two_pos _
  obtain ⟨low, high, inside⟩ := h
  rw [quarter_unit] at low high inside power
  have lower : ((4 * m - gapBelow m s : Nat) : ℚ) * 2 ^ (s - 2) ≤ z ∧
      (m % 2 = 1 → ((4 * m - gapBelow m s : Nat) : ℚ) * 2 ^ (s - 2) < z) := by
    rw [cast_low pos]
    by_cases narrow : m = pow2 52 ∧ -1074 < s
    · have above := power narrow.1 narrow.2
      rw [gapBelow, if_pos narrow]
      refine ⟨by push_cast; linarith, fun odd => ?_⟩
      rw [narrow.1] at odd
      exact absurd odd (by decide)
    · rw [gapBelow, if_neg narrow]
      exact ⟨by push_cast; linarith, fun odd => by have := (inside odd).1; push_cast; linarith⟩
  refine ⟨lower.1, ?_, fun odd => ⟨lower.2 odd, ?_⟩⟩
  · push_cast
    linarith
  · have := (inside odd).2
    push_cast
    linarith

/-- A number just below a power of two that is rounded up to it rounds to that double. -/
theorem Near.roundsTo_carried (h : Near (pow2 53) s z) (below : z < pow2 53 * 2 ^ s)
    (least : -1074 ≤ s) : RoundsTo (pow2 52) (s + 1) z := by
  have unit : (2 : ℚ) ^ s = 2 * 2 ^ (s + 1 - 2) := by
    rw [show s = 1 + (s + 1 - 2) by omega, zpow_one_add₀ two_ne_zero]
    ring_nf
  have low := h.low
  rw [unit] at low below
  have gap : gapBelow (pow2 52) (s + 1) = 1 := if_pos ⟨rfl, by omega⟩
  refine ⟨?_, ?_, fun odd => absurd odd (by decide)⟩
  · rw [gap]
    norm_num [pow2] at low ⊢
    linarith
  · norm_num [pow2] at below ⊢
    have positive : (0 : ℚ) < 2 ^ (s + 1 - 2) := zpow_pos two_pos _
    linarith

theorem pow2_mul_zpow_le {k : Nat} {e : Int} (h : e ≤ k + s) :
    (2 : ℚ) ^ e ≤ pow2 k * 2 ^ s := by
  rw [pow2_mul_zpow]
  exact zpow_le_zpow_right₀ one_le_two h

theorem largest_le : ((2 ^ 54 - 1) * 2 ^ (970 : Int) : ℚ) ≤ pow2 54 * 2 ^ (970 : Int) := by
  have unit : (0 : ℚ) < 2 ^ (970 : Int) := zpow_pos two_pos _
  refine mul_le_mul_of_nonneg_right ?_ unit.le
  norm_num [pow2]

/-- The double of a mantissa that a number is near to, where the number has no fewer bits unless the
scale is the least one. -/
theorem nearest_pack (negative : Bool) (near : Near m s z) (most : m < pow2 53)
    (least : -1074 ≤ s) (normal : -1074 < s → pow2 52 * 2 ^ s ≤ z) :
    Nearest negative z (pack negative m s) := by
  have unit : (0 : ℚ) < 2 ^ s := zpow_pos two_pos _
  by_cases inRange : s ≤ 971
  · have bits : pow2 52 ≤ m ∨ s = -1074 := by
      by_cases bottom : s = -1074
      · exact .inr bottom
      · left
        have above := normal (by omega)
        have high := near.high
        have : (2 * pow2 52 : ℚ) ≤ 2 * m + 1 := by
          refine le_of_mul_le_mul_right ?_ unit
          linarith
        have : 2 * pow2 52 ≤ 2 * m + 1 := by exact_mod_cast this
        omega
    have canonical : Canonical m s := ⟨most, least, inRange, bits⟩
    rw [pack, dif_pos canonical]
    by_cases nothing : m = 0
    · have bottom : s = -1074 := by
        have : 0 < pow2 52 := pow2_pos 52
        omega
      subst nothing bottom
      refine .zero ?_
      have high := near.high
      have half : (2 : ℚ) ^ (-1074 : Int) = 2 * 2 ^ (-1075 : Int) := by
        rw [show (-1074 : Int) = 1 + -1075 by decide, zpow_one_add₀ two_ne_zero]
      rw [half, Nat.cast_zero] at high
      linarith
    · refine .finite canonical nothing (near.roundsTo nothing ?_)
      rintro rfl above
      exact normal above
  · rw [pack, dif_neg fun canonical => inRange canonical.2.2.1]
    refine .infinity ?_
    calc ((2 ^ 54 - 1) * 2 ^ (970 : Int) : ℚ) ≤ pow2 54 * 2 ^ (970 : Int) := largest_le
      _ = 2 ^ (1024 : Int) := by rw [pow2_mul_zpow]; rfl
      _ ≤ pow2 52 * 2 ^ s := pow2_mul_zpow_le (by omega)
      _ ≤ z := normal (by omega)

/-- The double of a number that is rounded up to a power of two. -/
theorem nearest_pack_carried (negative : Bool) (near : Near (pow2 53) s z)
    (below : z < pow2 53 * 2 ^ s) (least : -1074 ≤ s) :
    Nearest negative z (pack negative (pow2 52) (s + 1)) := by
  by_cases inRange : s + 1 ≤ 971
  · have canonical : Canonical (pow2 52) (s + 1) :=
      ⟨by decide, by omega, inRange, .inl (Nat.le_refl _)⟩
    rw [pack, dif_pos canonical]
    exact .finite canonical (pow2_pos 52).ne' (near.roundsTo_carried below least)
  · rw [pack, dif_neg fun canonical => inRange canonical.2.2.1]
    refine .infinity ?_
    have scaled : (2 : ℚ) * 2 ^ (970 : Int) ≤ 2 ^ s := by
      rw [← zpow_one_add₀ two_ne_zero]
      exact zpow_le_zpow_right₀ one_le_two (by omega)
    have low := near.low
    generalize (2 : ℚ) ^ (970 : Int) = unit at scaled ⊢
    norm_num [pow2] at low ⊢
    linarith

end

/-- A quotient is rounded to the nearest double. -/
theorem nearest_ofRatio (negative : Bool) {num den : Nat} (hd : den ≠ 0) :
    Nearest negative (num / den) (ofRatio negative num den) := by
  by_cases hn : num = 0
  · rw [ofRatio, if_pos hn, hn, Nat.cast_zero, zero_div]
    exact .zero (zpow_nonneg zero_le_two _)
  have positive : (0 : ℚ) < den := Nat.cast_pos.2 (Nat.pos_of_ne_zero hd)
  obtain ⟨lower, upper⟩ := log2Ratio_bounds hn hd
  rw [← le_div_iff₀ positive] at lower
  rw [← div_lt_iff₀ positive] at upper
  rw [ofRatio, if_neg hn]
  generalize log2Ratio num den = k at lower upper ⊢
  generalize hs : max (k - 52) (-1074) = s
  have near : Near (roundHalfEven (num * pow2 (-s).toNat) (den * pow2 s.toNat)) s (num / den) :=
    near_scaled hd rfl
  have most : roundHalfEven (num * pow2 (-s).toNat) (den * pow2 s.toNat) ≤ pow2 53 := by
    refine roundHalfEven_le ((scaled_le_iff ..).2 ?_)
      (Nat.mul_pos (Nat.pos_of_ne_zero hd) (pow2_pos _))
    rw [← div_le_iff₀ positive]
    exact upper.le.trans (pow2_mul_zpow_le (by omega))
  simp only
  generalize roundHalfEven (num * pow2 (-s).toNat) (den * pow2 s.toNat) = m at near most ⊢
  generalize (num : ℚ) / den = z at lower upper near ⊢
  split
  · next carried =>
    subst carried
    exact nearest_pack_carried negative near (upper.trans_le (pow2_mul_zpow_le (by omega)))
      (by omega)
  · refine nearest_pack negative near (by omega) (by omega) fun above => ?_
    rw [pow2_mul_zpow]
    exact (zpow_le_zpow_right₀ one_le_two (by omega)).trans lower

/-- A decimal is rounded to the nearest double, however large or small it is. -/
theorem nearest_ofDecimal (negative : Bool) (digits : Nat) (exponent : Int) :
    Nearest negative (digits * 10 ^ exponent) (ofDecimal negative digits exponent) := by
  by_cases nothing : digits = 0
  · rw [ofDecimal, if_pos nothing, nothing, Nat.cast_zero, zero_mul]
    exact .zero (zpow_nonneg zero_le_two _)
  have ten : (0 : ℚ) < 10 ^ exponent := zpow_pos (by norm_num) _
  have size : 1 ≤ (Nat.toDigits 10 digits).length := Nat.length_toDigits_pos
  have below : (digits : ℚ) < 10 ^ ((Nat.toDigits 10 digits).length : Int) := by
    exact_mod_cast lt_pow_length digits
  have above : (10 : ℚ) ^ (((Nat.toDigits 10 digits).length : Int) - 1) ≤ digits := by
    rw [← Nat.cast_one, ← Nat.cast_sub size, zpow_natCast]
    exact_mod_cast pow_length_le nothing
  simp only [ofDecimal, if_neg nothing]
  generalize (Nat.toDigits 10 digits).length = length at *
  split
  · refine .infinity ?_
    calc ((2 ^ 54 - 1) * 2 ^ (970 : Int) : ℚ) ≤ pow2 54 * 2 ^ (970 : Int) := largest_le
      _ = 2 ^ (1024 : Int) := by rw [pow2_mul_zpow]; rfl
      _ ≤ 2 ^ (3 * 400 : Int) := zpow_le_zpow_right₀ one_le_two (by decide)
      _ ≤ 10 ^ (400 : Int) := (zpow_two_lt_zpow_ten (by decide)).le
      _ ≤ 10 ^ ((length : Int) - 1) * 10 ^ exponent := by
        rw [← zpow_add₀ (by norm_num)]
        exact zpow_le_zpow_right₀ (by norm_num) (by omega)
      _ ≤ digits * 10 ^ exponent := mul_le_mul_of_nonneg_right above ten.le
  split
  · refine .zero ?_
    calc (digits : ℚ) * 10 ^ exponent ≤ 10 ^ (length : Int) * 10 ^ exponent :=
          mul_le_mul_of_nonneg_right below.le ten.le
      _ ≤ 10 ^ (-400 : Int) := by
        rw [← zpow_add₀ (by norm_num)]
        exact zpow_le_zpow_right₀ (by norm_num) (by omega)
      _ ≤ 2 ^ (-(3 * 400) : Int) := by
        rw [zpow_neg, zpow_neg]
        exact (inv_strictAnti₀ (zpow_pos two_pos _) (zpow_two_lt_zpow_ten (by decide))).le
      _ ≤ 2 ^ (-1075 : Int) := zpow_le_zpow_right₀ one_le_two (by decide)
  · have near : Nearest negative
        (↑(digits * pow10 exponent.toNat) / ↑(pow10 (-exponent).toNat)) _ :=
      nearest_ofRatio negative (pow10_pos _).ne'
    rwa [Nat.cast_mul, mul_div_assoc, ← zpow_ten_eq_div] at near

/-! ## One double only -/

section
variable {m : Nat} {s : Int} {z : ℚ}

/-- What rounds to a double other than zero is beyond one half of the least one, and below the
numbers that are out of range. -/
theorem RoundsTo.inRange (h : RoundsTo m s z) (canonical : Canonical m s) (pos : m ≠ 0) :
    2 ^ (-1075 : Int) < z ∧ z < (2 ^ 54 - 1) * 2 ^ (970 : Int) := by
  obtain ⟨most, least, greatest, -⟩ := canonical
  have bound : pow2 53 = 2 ^ 53 := rfl
  have unit : (0 : ℚ) < 2 ^ (s - 2) := zpow_pos two_pos _
  have low : (2 : ℚ) ^ (-1075 : Int) ≤ 2 * 2 ^ (s - 2) := by
    rw [← zpow_one_add₀ two_ne_zero]
    exact zpow_le_zpow_right₀ one_le_two (by omega)
  have high : 2 * 2 ^ (s - 2) ≤ (2 : ℚ) ^ (970 : Int) := by
    rw [← zpow_one_add₀ two_ne_zero]
    exact zpow_le_zpow_right₀ one_le_two (by omega)
  have gap : gapBelow m s ≤ 2 := by
    unfold gapBelow
    split <;> omega
  obtain ⟨lower, upper, inside⟩ := h
  generalize (2 : ℚ) ^ (-1075 : Int) = tiny at low ⊢
  generalize (2 : ℚ) ^ (970 : Int) = huge at high ⊢
  generalize (2 : ℚ) ^ (s - 2) = u at unit low high lower upper inside
  have end_le {a b : Nat} (h : a ≤ b) : (a : ℚ) * u ≤ b * u :=
    mul_le_mul_of_nonneg_right (Nat.cast_le.2 h) unit.le
  -- The least and the greatest mantissa are odd, so the ends themselves do not round to them.
  rcases Nat.mod_two_eq_zero_or_one m with even | odd
  · have first := end_le (show 3 ≤ 4 * m - gapBelow m s by omega)
    have last := end_le (show 4 * m + 2 ≤ 2 ^ 55 - 3 by omega)
    push_cast at first last upper
    constructor <;> linarith
  · have first := end_le (show 2 ≤ 4 * m - gapBelow m s by omega)
    have last := end_le (show 4 * m + 2 ≤ 2 ^ 55 - 2 by omega)
    have strict := inside odd
    push_cast at first last strict
    constructor <;> linarith

/-- Two doubles to which a number rounds are the same. -/
theorem RoundsTo.unique {m' : Nat} {s' : Int} (h : RoundsTo m s z) (h' : RoundsTo m' s' z)
    (canonical : Canonical m s) (canonical' : Canonical m' s') (pos : m ≠ 0) (pos' : m' ≠ 0)
    (negative : Bool) :
    Double.finite negative m s canonical = .finite negative m' s' canonical' := by
  have nonneg : 0 ≤ z.num := by
    have positive := (zpow_pos two_pos (-1075 : Int)).trans (h.inRange canonical pos).1
    exact (Rat.num_pos.2 positive).le
  have quotient : z = (z.num.toNat : Nat) / (z.den : Nat) := by
    conv_lhs => rw [← Rat.num_div_den z, ← Int.toNat_of_nonneg nonneg]
    rfl
  rw [quotient] at h h'
  rw [← ofRatio_eq_of_roundsTo canonical pos z.den_nz h negative,
    ofRatio_eq_of_roundsTo canonical' pos' z.den_nz h' negative]

end

theorem tiny_lt_huge : (2 : ℚ) ^ (-1075 : Int) < (2 ^ 54 - 1) * 2 ^ (970 : Int) := by
  calc (2 : ℚ) ^ (-1075 : Int) < 2 ^ (970 : Int) :=
        zpow_lt_zpow_right₀ one_lt_two (by decide)
    _ ≤ (2 ^ 54 - 1) * 2 ^ (970 : Int) :=
        le_mul_of_one_le_left (zpow_nonneg zero_le_two _) (by norm_num)

/-- There is only one double that a number is rounded to. -/
theorem Nearest.unique {negative : Bool} {z : ℚ} {v w : Double} (hv : Nearest negative z v)
    (hw : Nearest negative z w) : v = w := by
  cases hv with
  | zero small =>
    cases hw with
    | zero => rfl
    | finite canonical pos near =>
      exact absurd (near.inRange canonical pos).1 (not_lt.2 small)
    | infinity large => exact absurd (small.trans_lt tiny_lt_huge) (not_lt.2 large)
  | finite canonical pos near =>
    have range := near.inRange canonical pos
    cases hw with
    | zero small => exact absurd range.1 (not_lt.2 small)
    | finite canonical' pos' near' => exact near.unique near' canonical canonical' pos pos' negative
    | infinity large => exact absurd range.2 (not_lt.2 large)
  | infinity large =>
    cases hw with
    | zero small => exact absurd (small.trans_lt tiny_lt_huge) (not_lt.2 large)
    | finite canonical pos near =>
      exact absurd (near.inRange canonical pos).2 (not_lt.2 large)
    | infinity => rfl

end Crosstab.Double
