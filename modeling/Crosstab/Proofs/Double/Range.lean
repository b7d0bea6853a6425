import Mathlib.Algebra.Order.Field.Power
import Mathlib.Algebra.Order.Ring.Rat
import Mathlib.Tactic.Ring
import Crosstab.Json.Number

namespace Crosstab.Double

/-! ## Rounding -/

/-- A quotient up to a natural number is not rounded beyond it. -/
theorem roundHalfEven_le {num den n : Nat} (h : num ≤ n * den) (pos : 0 < den) :
    roundHalfEven num den ≤ n := by
  have whole := Nat.div_add_mod num den
  have below : num / den ≤ n := Nat.div_le_of_le_mul (by rwa [Nat.mul_comm] at h)
  simp only [roundHalfEven]
  split
  · next up =>
    by_contra beyond
    have equal : num / den = n := by omega
    rw [equal, Nat.mul_comm] at whole
    omega
  · exact below

theorem le_roundHalfEven {num den n : Nat} (h : n * den ≤ num) (pos : 0 < den) :
    n ≤ roundHalfEven num den := by
  have below : n ≤ num / den := (Nat.le_div_iff_mul_le pos).2 h
  simp only [roundHalfEven]
  split <;> omega

/-- The two sides of a comparison with a power of two, one of them scaled. -/
theorem zpow_eq_div (s : Int) : (2 : ℚ) ^ s = pow2 s.toNat / pow2 (-s).toNat := by
  simp only [pow2, Nat.pow_eq, Nat.cast_pow, Nat.cast_ofNat]
  rcases Int.le_total 0 s with h | h
  · lift s to Nat using h
    simp
  · obtain ⟨n, rfl⟩ : ∃ n : Nat, s = -n := ⟨s.natAbs, by omega⟩
    simp

theorem pow2_pos (k : Nat) : 0 < pow2 k := Nat.pow_pos (by decide)

/-- A scaled quotient, compared with a natural number. -/
theorem scaled_le_iff (num den n : Nat) (s : Int) :
    num * pow2 (-s).toNat ≤ n * (den * pow2 s.toNat) ↔ (num : ℚ) ≤ n * 2 ^ s * den := by
  have pos : (0 : ℚ) < pow2 (-s).toNat := Nat.cast_pos.2 (pow2_pos _)
  rw [zpow_eq_div, ← Nat.cast_le (α := ℚ)]
  push_cast
  rw [show (n : ℚ) * (pow2 s.toNat / pow2 (-s).toNat) * den =
    n * (den * pow2 s.toNat) / pow2 (-s).toNat by ring, le_div_iff₀ pos]

theorem le_scaled_iff (num den n : Nat) (s : Int) :
    n * (den * pow2 s.toNat) ≤ num * pow2 (-s).toNat ↔ (n : ℚ) * 2 ^ s * den ≤ num := by
  have pos : (0 : ℚ) < pow2 (-s).toNat := Nat.cast_pos.2 (pow2_pos _)
  rw [zpow_eq_div, ← Nat.cast_le (α := ℚ)]
  push_cast
  rw [show (n : ℚ) * (pow2 s.toNat / pow2 (-s).toNat) * den =
    n * (den * pow2 s.toNat) / pow2 (-s).toNat by ring, div_le_iff₀ pos]

theorem pow2_mul_zpow (a : Nat) (s : Int) : (pow2 a : ℚ) * 2 ^ s = 2 ^ ((a : Int) + s) := by
  rw [zpow_add₀ two_ne_zero, zpow_natCast, pow2, Nat.pow_eq, Nat.cast_pow, Nat.cast_ofNat]

/-- A natural number lies between two powers of two. -/
theorem zpow_log2_le {n : Nat} (pos : n ≠ 0) : (2 : ℚ) ^ (n.log2 : Int) ≤ n := by
  rw [zpow_natCast]
  exact_mod_cast Nat.log2_self_le pos

theorem lt_zpow_log2 (n : Nat) : (n : ℚ) < 2 ^ ((n.log2 : Int) + 1) := by
  rw [← Nat.cast_succ, zpow_natCast]
  exact_mod_cast Nat.lt_log2_self

/-- The exponent of a quotient is that of the greatest power of two up to it. -/
theorem log2Ratio_bounds {num den : Nat} (hn : num ≠ 0) (hd : den ≠ 0) :
    (2 : ℚ) ^ log2Ratio num den * den ≤ num ∧
      (num : ℚ) < 2 ^ (log2Ratio num den + 1) * den := by
  have tried := le_scaled_iff num den 1 (num.log2 - den.log2)
  simp only [Nat.cast_one, one_mul] at tried
  simp only [log2Ratio]
  split
  · next h =>
    refine ⟨tried.1 h, ?_⟩
    calc (num : ℚ) < 2 ^ ((num.log2 : Int) + 1) := lt_zpow_log2 num
      _ = 2 ^ ((num.log2 : Int) - den.log2 + 1) * 2 ^ (den.log2 : Int) := by
        rw [← zpow_add₀ two_ne_zero]; ring_nf
      _ ≤ 2 ^ ((num.log2 : Int) - den.log2 + 1) * den :=
        mul_le_mul_of_nonneg_left (zpow_log2_le hd) (zpow_nonneg zero_le_two _)
  · next h =>
    rw [sub_add_cancel]
    refine ⟨?_, not_le.1 (mt tried.2 h)⟩
    calc (2 : ℚ) ^ ((num.log2 : Int) - den.log2 - 1) * den
        ≤ 2 ^ ((num.log2 : Int) - den.log2 - 1) * 2 ^ ((den.log2 : Int) + 1) :=
        mul_le_mul_of_nonneg_left (lt_zpow_log2 den).le (zpow_nonneg zero_le_two _)
      _ = 2 ^ (num.log2 : Int) := by rw [← zpow_add₀ two_ne_zero]; ring_nf
      _ ≤ num := zpow_log2_le hn

theorem isFinite_pack {negative : Bool} {mantissa : Nat} {scale : Int}
    (h : Canonical mantissa scale) : (pack negative mantissa scale).isFinite = true := by
  rw [pack, dif_pos h]
  rfl

/-- A quotient up to the greatest finite double is rounded to a finite double. -/
theorem isFinite_ofRatio (negative : Bool) {num den : Nat} (hd : den ≠ 0)
    (small : (num : ℚ) ≤ (pow2 53 - 1 : Nat) * 2 ^ (971 : Int) * den) :
    (ofRatio negative num den).isFinite = true := by
  unfold ofRatio
  split
  · rfl
  next hn =>
  obtain ⟨lower, upper⟩ := log2Ratio_bounds hn hd
  have pos : (0 : ℚ) < den := Nat.cast_pos.2 (Nat.pos_of_ne_zero hd)
  generalize log2Ratio num den = k at lower upper
  have inRange : k < 1024 := by
    refine (zpow_lt_zpow_iff_right₀ (one_lt_two (α := ℚ))).1 (lt_of_mul_lt_mul_right ?_ pos.le)
    calc (2 : ℚ) ^ k * den ≤ (pow2 53 - 1 : Nat) * 2 ^ (971 : Int) * den := lower.trans small
      _ < pow2 53 * 2 ^ (971 : Int) * den := by
        refine mul_lt_mul_of_pos_right (mul_lt_mul_of_pos_right ?_ (zpow_pos two_pos _)) pos
        exact Nat.cast_lt.2 (by decide)
      _ = 2 ^ (1024 : Int) * den := by rw [pow2_mul_zpow]; rfl
  generalize hs : max (k - 52) (-1074) = s
  have scaled : 0 < den * pow2 s.toNat := Nat.mul_pos (Nat.pos_of_ne_zero hd) (pow2_pos _)
  have most : roundHalfEven (num * pow2 (-s).toNat) (den * pow2 s.toNat) ≤ pow2 53 := by
    refine roundHalfEven_le ((scaled_le_iff ..).2 (upper.le.trans ?_)) scaled
    rw [pow2_mul_zpow]
    exact mul_le_mul_of_nonneg_right (zpow_le_zpow_right₀ one_le_two (by omega)) pos.le
  have least : s = -1074 ∨
      pow2 52 ≤ roundHalfEven (num * pow2 (-s).toNat) (den * pow2 s.toNat) := by
    by_cases bottom : s = -1074
    · exact .inl bottom
    · refine .inr (le_roundHalfEven ((le_scaled_iff ..).2 ?_) scaled)
      rwa [pow2_mul_zpow, show ((52 : Nat) : Int) + s = k by omega]
  have last : s = 971 → roundHalfEven (num * pow2 (-s).toNat) (den * pow2 s.toNat) < pow2 53 := by
    rintro rfl
    have below := roundHalfEven_le ((scaled_le_iff ..).2 small) scaled
    have one : 0 < pow2 53 := pow2_pos 53
    omega
  simp only
  split
  · next carried =>
    refine isFinite_pack ⟨by decide, by omega, ?_, .inl (Nat.le_refl _)⟩
    have : s ≠ 971 := fun e => by have := last e; omega
    omega
  · refine isFinite_pack ⟨by omega, by omega, by omega, by omega⟩

theorem isFinite_ofInt {i : Int} (small : i.natAbs ≤ pow2 64) : (ofInt i).isFinite = true := by
  refine isFinite_ofRatio _ one_ne_zero ?_
  calc (i.natAbs : ℚ) ≤ pow2 64 := Nat.cast_le.2 small
    _ = 2 ^ (64 : Int) := by rw [← mul_one (pow2 64 : ℚ), ← zpow_zero (2 : ℚ), pow2_mul_zpow]; rfl
    _ ≤ 2 ^ (971 : Int) := zpow_le_zpow_right₀ one_le_two (by decide)
    _ ≤ (pow2 53 - 1 : Nat) * 2 ^ (971 : Int) * (1 : Nat) := by
      rw [Nat.cast_one, mul_one]
      exact le_mul_of_one_le_left (zpow_nonneg zero_le_two _) (Nat.one_le_cast.2 (by decide))

theorem isFinite_neg {v : Double} (h : v.isFinite = true) : v.neg.isFinite = true := by
  cases v with
  | finite => rfl
  | nan | infinity => cases h

theorem isFinite_of_ne {v : Double} (number : v ≠ .nan) (bounded : ∀ b, v ≠ .infinity b) :
    v.isFinite = true := by
  cases v with
  | nan => exact absurd rfl number
  | infinity b => exact absurd rfl (bounded b)
  | finite => rfl

theorem ofRatio_ne_nan (negative : Bool) (num den : Nat) : ofRatio negative num den ≠ .nan := by
  unfold ofRatio pack zero
  split
  · exact nofun
  · simp only
    split <;> split <;> exact nofun

def atLeastOne : Double → Bool
  | finite _ m e _ => m != 0 && decide (pow2 (-e).toNat ≤ m * pow2 e.toNat)
  | _ => false

theorem one_le_of_atLeastOne {negative : Bool} {m : Nat} {e : Int} {h : Canonical m e}
    (large : atLeastOne (.finite negative m e h) = true) : m ≠ 0 ∧ (2 : ℚ) ^ (-e) ≤ m := by
  obtain ⟨hm, size⟩ : m ≠ 0 ∧ pow2 (-e).toNat ≤ m * pow2 e.toNat := by
    simpa [atLeastOne] using large
  refine ⟨hm, ?_⟩
  have pos : (0 : ℚ) < pow2 e.toNat := Nat.cast_pos.2 (pow2_pos _)
  rw [zpow_eq_div, neg_neg, div_le_iff₀ pos]
  exact_mod_cast size

end Crosstab.Double

namespace Crosstab.Json.Number

open Double

theorem atLeastOne_pow10 : ∀ e < 309, atLeastOne (Double.ofInt (pow10 e)) = true := by
  decide +kernel

theorem isFinite_divide {v : Double} (h : v.isFinite = true) {e : Nat} (he : e ≤ 308) :
    (divide v e).isFinite = true := by
  have divisor := atLeastOne_pow10 e (by omega)
  unfold divide
  split
  · next n f hc _ m g _ hd =>
    rw [hd] at divisor
    obtain ⟨hm, one⟩ := one_le_of_atLeastOne divisor
    obtain ⟨mantissa, -, scale, -⟩ := hc
    have most : n ≤ pow2 53 - 1 := by omega
    have factor : (2 : ℚ) ^ (f - g) ≤ 2 ^ (971 : Int) * m := by
      rw [sub_eq_add_neg, zpow_add₀ two_ne_zero]
      exact mul_le_mul (zpow_le_zpow_right₀ one_le_two scale) one (zpow_nonneg zero_le_two _)
        (zpow_nonneg zero_le_two _)
    have pos : (0 : ℚ) < pow2 (-(f - g)).toNat := Nat.cast_pos.2 (pow2_pos _)
    refine isFinite_ofRatio _ (Nat.mul_ne_zero hm (pow2_pos _).ne') ?_
    rw [Nat.cast_mul, Nat.cast_mul]
    calc (n : ℚ) * pow2 (f - g).toNat = n * 2 ^ (f - g) * pow2 (-(f - g)).toNat := by
          rw [zpow_eq_div, mul_assoc, div_mul_cancel₀ _ pos.ne']
      _ ≤ (pow2 53 - 1 : Nat) * (2 ^ (971 : Int) * m) * pow2 (-(f - g)).toNat := by
          refine mul_le_mul_of_nonneg_right ?_ pos.le
          exact mul_le_mul (Nat.cast_le.2 most) factor (zpow_nonneg zero_le_two _)
            (Nat.cast_nonneg _)
      _ = (pow2 53 - 1 : Nat) * 2 ^ (971 : Int) * (m * pow2 (-(f - g)).toNat) := by ring
  · exact h

theorem isFinite_scaleDown {v : Double} (h : v.isFinite = true) (e : Nat) :
    (scaleDown v e).isFinite = true := by
  fun_induction scaleDown v e with
  | case1 v e he => exact isFinite_divide h he
  | case2 => exact h
  | case3 v e _ _ ih => exact ih (isFinite_divide h (Nat.le_refl _))

theorem isFinite_scaleUp {m : Nat} {g : Int} {e : Nat} {v : Double} (h : scaleUp m g e = some v) :
    v.isFinite = true := by
  unfold scaleUp at h
  split at h
  · cases h; rfl
  split at h
  · cases h
  split at h
  · simp only at h
    split at h
    · cases h
    · next finite =>
      cases h
      exact isFinite_of_ne (ofRatio_ne_nan _ _ _) finite
  · cases h

theorem isFinite_scale {n : Nat} {e : Int} {v : Double} (h : scale n e = some v) :
    v.isFinite = true := by
  unfold scale at h
  split at h
  · split at h
    · exact isFinite_scaleUp h
    · cases h
      exact isFinite_scaleDown rfl _
  · cases h

end Crosstab.Json.Number
