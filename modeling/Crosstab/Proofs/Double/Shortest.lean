import Mathlib.Tactic.Linarith
import Mathlib.Tactic.NormNum
import Mathlib.Tactic.Positivity
import Crosstab.Double.Shortest
import Crosstab.Proofs.Double.Range

/-!
# Shortest decimals are rounded back

The shortest decimal of a double lies among the reals that round to it, so rounding it gives the
double again.
-/

namespace Crosstab

/-! ## Powers of ten -/

theorem pow10_pos (k : Nat) : 0 < pow10 k := Nat.pow_pos (by decide)

theorem zpow_ten_eq_div (e : Int) : (10 : ℚ) ^ e = pow10 e.toNat / pow10 (-e).toNat := by
  simp only [pow10, Nat.pow_eq, Nat.cast_pow, Nat.cast_ofNat]
  rcases Int.le_total 0 e with h | h
  · lift e to Nat using h
    simp
  · obtain ⟨n, rfl⟩ : ∃ n : Nat, e = -n := ⟨e.natAbs, by omega⟩
    simp

def Decimal.value (d : Decimal) : ℚ := d.digits * 10 ^ d.exponent

theorem value_dropZeros (digits : Nat) (exponent : Int) :
    (dropZeros digits exponent).value = digits * 10 ^ exponent := by
  fun_induction dropZeros digits exponent with
  | case1 digits exponent h ih =>
    have ten : (10 : ℚ) * (digits / 10 : Nat) = digits := by
      exact_mod_cast Nat.mul_div_cancel' (Nat.dvd_of_mod_eq_zero h.2)
    rw [ih, zpow_add_one₀ (by norm_num), ← ten]
    ring
  | case2 digits exponent h => rfl

theorem lt_pow_decimalLength (n : Nat) : n < 10 ^ decimalLength n := by
  fun_induction decimalLength n with
  | case1 => decide
  | case2 n _ ih =>
    rw [Nat.pow_succ]
    omega

theorem pow_decimalLength_le {n : Nat} (pos : n ≠ 0) :
    ∃ k, decimalLength n = k + 1 ∧ 10 ^ k ≤ n := by
  induction n using Nat.strongRecOn with
  | ind n ih =>
    rw [decimalLength, dif_neg pos]
    by_cases small : n / 10 = 0
    · exact ⟨0, by rw [small, decimalLength, dif_pos rfl], by omega⟩
    · obtain ⟨k, length, le⟩ := ih (n / 10) (by omega) small
      refine ⟨k + 1, by rw [length], ?_⟩
      rw [Nat.pow_succ]
      omega

/-- The first digit of a quotient stands right before its decimal place. -/
theorem zpow_decimalPlace_le {num den : Nat} (hn : num ≠ 0) (hd : den ≠ 0) :
    (10 : ℚ) ^ (decimalPlace num den - 1) * den ≤ num := by
  unfold decimalPlace
  split
  · next large =>
    have whole : num / den ≠ 0 := (Nat.div_pos large (Nat.pos_of_ne_zero hd)).ne'
    obtain ⟨k, length, le⟩ := pow_decimalLength_le whole
    rw [length, Nat.cast_succ, add_sub_cancel_right, zpow_natCast]
    exact_mod_cast (Nat.mul_le_mul_right den le).trans (Nat.div_mul_le_self num den)
  · have below := lt_pow_decimalLength ((den - 1) / num)
    generalize decimalLength ((den - 1) / num) = k at below
    have scaled : den ≤ 10 ^ k * num := by
      have := (Nat.div_lt_iff_lt_mul (Nat.pos_of_ne_zero hn)).1 below
      omega
    rw [show (1 : Int) - k - 1 = -k by ring, zpow_neg, zpow_natCast,
      inv_mul_le_iff₀ (by positivity)]
    exact_mod_cast scaled

namespace Double

/-! ## The reals that round to a double -/

/-- A double lies half as far above its lower neighbour if it is a power of two. -/
def gapBelow (mantissa : Nat) (scale : Int) : Nat :=
  if mantissa = pow2 52 ∧ -1074 < scale then 1 else 2

/-- A real number rounds to `mantissa * 2 ^ scale`: it lies no farther away than half of the way to
the neighbours, and nearer if the mantissa is odd. -/
structure RoundsTo (mantissa : Nat) (scale : Int) (z : ℚ) : Prop where
  low : ((4 * mantissa - gapBelow mantissa scale : Nat) : ℚ) * 2 ^ (scale - 2) ≤ z
  high : z ≤ ((4 * mantissa + 2 : Nat) : ℚ) * 2 ^ (scale - 2)
  inside : mantissa % 2 = 1 →
    ((4 * mantissa - gapBelow mantissa scale : Nat) : ℚ) * 2 ^ (scale - 2) < z ∧
      z < ((4 * mantissa + 2 : Nat) : ℚ) * 2 ^ (scale - 2)

theorem end_le_grid_iff (a k : Nat) (s e : Int) :
    a * pow2 (s - 2).toNat * pow10 (-e).toNat ≤ k * pow10 e.toNat * pow2 (2 - s).toNat ↔
      (a : ℚ) * 2 ^ (s - 2) ≤ k * 10 ^ e := by
  have two : (0 : ℚ) < pow2 (2 - s).toNat := Nat.cast_pos.2 (pow2_pos _)
  have ten : (0 : ℚ) < pow10 (-e).toNat := Nat.cast_pos.2 (pow10_pos _)
  rw [zpow_eq_div, zpow_ten_eq_div, neg_sub, mul_div_assoc', mul_div_assoc',
    div_le_div_iff₀ two ten]
  exact_mod_cast Iff.rfl

theorem grid_le_end_iff (a k : Nat) (s e : Int) :
    k * pow10 e.toNat * pow2 (2 - s).toNat ≤ a * pow2 (s - 2).toNat * pow10 (-e).toNat ↔
      (k : ℚ) * 10 ^ e ≤ a * 2 ^ (s - 2) := by
  have two : (0 : ℚ) < pow2 (2 - s).toNat := Nat.cast_pos.2 (pow2_pos _)
  have ten : (0 : ℚ) < pow10 (-e).toNat := Nat.cast_pos.2 (pow10_pos _)
  rw [zpow_eq_div, zpow_ten_eq_div, neg_sub, mul_div_assoc', mul_div_assoc',
    div_le_div_iff₀ ten two]
  exact_mod_cast Iff.rfl

section
variable {m k : Nat} {s e : Int}

theorem holds_interval_iff : (interval m s).holds k e = true ↔
    if m % 2 = 0 then
      ((4 * m - gapBelow m s : Nat) : ℚ) * 2 ^ (s - 2) ≤ k * 10 ^ e ∧
        (k : ℚ) * 10 ^ e ≤ ((4 * m + 2 : Nat) : ℚ) * 2 ^ (s - 2)
    else
      ((4 * m - gapBelow m s : Nat) : ℚ) * 2 ^ (s - 2) < k * 10 ^ e ∧
        (k : ℚ) * 10 ^ e < ((4 * m + 2 : Nat) : ℚ) * 2 ^ (s - 2) := by
  simp only [← not_le, ← end_le_grid_iff, ← grid_le_end_iff]
  by_cases even : m % 2 = 0 <;> simp [Interval.holds, interval, gapBelow, even]

theorem roundsTo_of_holds (h : (interval m s).holds k e = true) : RoundsTo m s (k * 10 ^ e) := by
  rw [holds_interval_iff] at h
  split at h
  · exact ⟨h.1, h.2, fun odd => by omega⟩
  · exact ⟨h.1.le, h.2.le, fun _ => h⟩

theorem holds_of_inside (low : ((4 * m - gapBelow m s : Nat) : ℚ) * 2 ^ (s - 2) < k * 10 ^ e)
    (high : (k : ℚ) * 10 ^ e < ((4 * m + 2 : Nat) : ℚ) * 2 ^ (s - 2)) :
    (interval m s).holds k e = true := by
  rw [holds_interval_iff]
  split
  · exact ⟨low.le, high.le⟩
  · exact ⟨low, high⟩

theorem exists_of_neighbour? {r : Interval} {tie : Tie} {d : Decimal}
    (h : r.neighbour? tie e = some d) : ∃ k, r.holds k e = true ∧ d.value = k * 10 ^ e := by
  simp only [Interval.neighbour?] at h
  split at h
  · cases h
  · next below _ => cases h; exact ⟨_, below, value_dropZeros ..⟩
  · next _ above => cases h; exact ⟨_, above, value_dropZeros ..⟩
  · next below above =>
    cases h
    refine ⟨_, ?_, value_dropZeros ..⟩
    split
    · exact above
    · exact below

end

section
variable {m : Nat} {s : Int} (canonical : Canonical m s)

theorem cast_low (pos : m ≠ 0) :
    ((4 * m - gapBelow m s : Nat) : ℚ) = 4 * m - gapBelow m s := by
  have small : gapBelow m s ≤ 4 * m := by
    unfold gapBelow
    split <;> omega
  rw [Nat.cast_sub small]
  push_cast
  ring

include canonical in
/-- The grid of seventeen digits is finer than the reals that round to a double reach. -/
theorem grid_lt_gap {g : ℚ} (fine : 10 ^ 16 * g ≤ 4 * m * 2 ^ (s - 2)) :
    g < 2 * (gapBelow m s * 2 ^ (s - 2)) ∧ g < 2 * (2 * 2 ^ (s - 2)) := by
  have unit : (0 : ℚ) < 2 ^ (s - 2) := zpow_pos two_pos _
  have most : (m : ℚ) < 2 ^ 53 := by exact_mod_cast canonical.1
  generalize (2 : ℚ) ^ (s - 2) = h at *
  have wide : g < 2 * (2 * h) := by nlinarith
  unfold gapBelow
  split
  · next power =>
    have exact : (m : ℚ) = 2 ^ 52 := by exact_mod_cast power.1
    rw [exact] at fine
    exact ⟨by push_cast; linarith, wide⟩
  · exact ⟨by push_cast; exact wide, wide⟩

/-- The grid of seventeen digits is that fine. -/
theorem seventeen_fine (pos : m ≠ 0) :
    10 ^ 16 * (10 : ℚ) ^ (decimalPlace (interval m s).mid (interval m s).den - 17) ≤
      4 * m * 2 ^ (s - 2) := by
  have mid : (interval m s).mid ≠ 0 :=
    Nat.mul_ne_zero (Nat.mul_ne_zero (by decide) pos) (pow2_pos _).ne'
  have den : (interval m s).den ≠ 0 := (pow2_pos _).ne'
  have positive : (0 : ℚ) < (interval m s).den := Nat.cast_pos.2 (Nat.pos_of_ne_zero den)
  refine le_of_mul_le_mul_right ?_ positive
  calc 10 ^ 16 * (10 : ℚ) ^ (decimalPlace (interval m s).mid (interval m s).den - 17) *
        (interval m s).den
      = 10 ^ (decimalPlace (interval m s).mid (interval m s).den - 1) * (interval m s).den := by
        rw [← zpow_natCast, ← zpow_add₀ (by norm_num)]
        congr 2
        push_cast
        ring
    _ ≤ (interval m s).mid := zpow_decimalPlace_le mid den
    _ = 4 * m * 2 ^ (s - 2) * (interval m s).den := by
        have two : (pow2 (2 - s).toNat : ℚ) ≠ 0 := Nat.cast_ne_zero.2 (pow2_pos _).ne'
        rw [zpow_eq_div, neg_sub, interval]
        push_cast
        rw [mul_assoc (4 * (m : ℚ)), div_mul_cancel₀ _ two]

include canonical in
/-- One of the two neighbours on the grid of seventeen digits rounds to the double. -/
theorem neighbour?_seventeen (pos : m ≠ 0) (tie : Tie) : (interval m s).neighbour? tie
    (decimalPlace (interval m s).mid (interval m s).den - 17) ≠ none := by
  have ⟨near, wide⟩ := grid_lt_gap canonical (seventeen_fine (s := s) pos)
  generalize decimalPlace (interval m s).mid (interval m s).den - 17 = e at near wide ⊢
  have den : 0 < (interval m s).den * pow10 e.toNat := Nat.mul_pos (pow2_pos _) (pow10_pos _)
  have unit : (0 : ℚ) < 2 ^ (s - 2) := zpow_pos two_pos _
  simp only [Interval.neighbour?]
  generalize hk : (interval m s).mid * pow10 (-e).toNat / ((interval m s).den * pow10 e.toNat) = k
  -- The middle lies between two neighbours.
  have lower : (k : ℚ) * 10 ^ e ≤ (4 * m : Nat) * 2 ^ (s - 2) := by
    rw [← grid_le_end_iff, Nat.mul_assoc k, Nat.mul_comm (pow10 _), ← hk]
    exact Nat.div_mul_le_self _ _
  have upper : ((4 * m : Nat) : ℚ) * 2 ^ (s - 2) < (k + 1 : Nat) * 10 ^ e := by
    have next := Nat.lt_mul_div_succ ((interval m s).mid * pow10 (-e).toNat) den
    rw [hk] at next
    rw [← not_le, ← grid_le_end_iff, not_le]
    calc 4 * m * pow2 (s - 2).toNat * pow10 (-e).toNat
        < pow2 (2 - s).toNat * pow10 e.toNat * (k + 1) := next
      _ = (k + 1) * pow10 e.toNat * pow2 (2 - s).toNat := by ring
  have either : (interval m s).holds k e = true ∨ (interval m s).holds (k + 1) e = true := by
    push_cast at lower upper
    have below : 0 < (gapBelow m s : ℚ) * 2 ^ (s - 2) := by
      refine mul_pos (Nat.cast_pos.2 ?_) unit
      unfold gapBelow
      split <;> decide
    by_cases nearer : 4 * (m : ℚ) * 2 ^ (s - 2) - k * 10 ^ e ≤ 10 ^ e / 2
    · refine .inl (holds_of_inside ?_ ?_)
      · rw [cast_low pos]
        linarith
      · push_cast
        linarith
    · refine .inr (holds_of_inside ?_ ?_)
      · rw [cast_low pos]
        push_cast
        linarith
      · push_cast
        linarith
  split
  · next no none => rw [no, none] at either; simp at either
  all_goals exact Option.some_ne_none _

include canonical in
/-- The shortest decimal of a double rounds to it. -/
theorem roundsTo_shortest (pos : m ≠ 0) (tie : Tie) :
    RoundsTo m s (shortest tie m s).value := by
  have found : ((List.range' 1 17).findSome? fun n : Nat => (interval m s).neighbour? tie
      (decimalPlace (interval m s).mid (interval m s).den - n)) ≠ none := by
    rw [Ne, List.findSome?_eq_none_iff]
    intro none
    exact neighbour?_seventeen canonical pos tie (none 17 (by decide))
  obtain ⟨d, hd⟩ := Option.ne_none_iff_exists'.1 found
  obtain ⟨n, -, hn⟩ := List.exists_of_findSome?_eq_some hd
  obtain ⟨k, holds, value⟩ := exists_of_neighbour? hn
  rw [shortest, hd, Option.getD_some, value]
  exact roundsTo_of_holds holds

end

/-! ## Rounding back -/

/-- A quotient is rounded to the natural number from which it is at most one half away, less if that
is odd. -/
theorem roundHalfEven_eq {num den n : Nat} (pos : 0 < n) (hd : 0 < den)
    (low : (2 * n - 1) * den ≤ 2 * num) (high : 2 * num ≤ (2 * n + 1) * den)
    (inside : n % 2 = 1 → (2 * n - 1) * den < 2 * num ∧ 2 * num < (2 * n + 1) * den) :
    roundHalfEven num den = n := by
  have whole := Nat.div_add_mod num den
  have rest := Nat.mod_lt num hd
  simp only [roundHalfEven]
  generalize num / den = q at *
  generalize num % den = r at *
  subst whole
  obtain ⟨n, rfl⟩ : ∃ k, n = k + 1 := ⟨n - 1, by omega⟩
  have near : q = n ∨ q = n + 1 := by
    by_contra far
    obtain less | more : q < n ∨ n + 1 < q := by omega
    · have : den * (q + 1) ≤ den * n := Nat.mul_le_mul_left _ less
      have split : (2 * (n + 1) - 1) * den = 2 * (den * n) + den := by
        rw [show 2 * (n + 1) - 1 = 2 * n + 1 by omega]; ring
      rw [Nat.mul_add] at this
      omega
    · have : den * (n + 2) ≤ den * q := Nat.mul_le_mul_left _ more
      have split : (2 * (n + 1) + 1) * den = 2 * (den * n) + 3 * den := by ring
      rw [Nat.mul_add] at this
      omega
  have lower : (2 * (n + 1) - 1) * den = 2 * (den * n) + den := by
    rw [show 2 * (n + 1) - 1 = 2 * n + 1 by omega]; ring
  have upper : (2 * (n + 1) + 1) * den = 2 * (den * n) + 3 * den := by ring
  rw [lower] at low inside
  rw [upper] at high inside
  obtain rfl | rfl := near
  · split <;> omega
  · have next : den * (n + 1) = den * n + den := by ring
    split <;> omega

section
variable {m num den : Nat} {s : Int} (canonical : Canonical m s) (pos : m ≠ 0) (hd : den ≠ 0)
  (h : RoundsTo m s (num / den))
include canonical pos hd h

omit canonical pos in
/-- A number that rounds to a double lies between the ends, as multiples of a quarter. -/
theorem ends_of_roundsTo :
    ((4 * m - gapBelow m s : Nat) : ℚ) * 2 ^ (s - 2) * den ≤ num ∧
      (num : ℚ) ≤ ((4 * m + 2 : Nat) : ℚ) * 2 ^ (s - 2) * den := by
  have positive : (0 : ℚ) < den := Nat.cast_pos.2 (Nat.pos_of_ne_zero hd)
  exact ⟨(le_div_iff₀ positive).1 h.low, (div_le_iff₀ positive).1 h.high⟩

omit canonical in
theorem num_ne_zero_of_roundsTo : num ≠ 0 := by
  rintro rfl
  have positive : (0 : ℚ) < den := Nat.cast_pos.2 (Nat.pos_of_ne_zero hd)
  have first : 0 < 4 * m - gapBelow m s := by
    unfold gapBelow
    split <;> omega
  have : (0 : ℚ) < (4 * m - gapBelow m s : Nat) * 2 ^ (s - 2) * den :=
    mul_pos (mul_pos (Nat.cast_pos.2 first) (zpow_pos two_pos _)) positive
  exact absurd (ends_of_roundsTo hd h).1 (by push_cast at this ⊢; linarith)

/-- The exponent of a number that rounds to a double is the double's, or one less just below a power
of two. -/
theorem log2Ratio_of_roundsTo : max (log2Ratio num den - 52) (-1074) = s ∨
    (m = pow2 52 ∧ -1074 < s ∧ log2Ratio num den = s + 51) := by
  obtain ⟨low, high⟩ := ends_of_roundsTo hd h
  obtain ⟨most, least, -, normal⟩ := canonical
  have positive : (0 : ℚ) < den := Nat.cast_pos.2 (Nat.pos_of_ne_zero hd)
  have unit : (0 : ℚ) < 2 ^ (s - 2) := zpow_pos two_pos _
  have hn := num_ne_zero_of_roundsTo pos hd h
  obtain ⟨lower, upper⟩ := log2Ratio_bounds hn hd
  generalize log2Ratio num den = k at *
  -- Powers of two on both sides compare the exponents.
  have below : k < s + 53 := by
    refine (zpow_lt_zpow_iff_right₀ (one_lt_two (α := ℚ))).1 (lt_of_mul_lt_mul_right ?_ positive.le)
    have quarters : 4 * m + 2 < pow2 55 := by
      have : pow2 55 = 4 * pow2 53 := by decide
      omega
    calc (2 : ℚ) ^ k * den ≤ (4 * m + 2 : Nat) * 2 ^ (s - 2) * den := lower.trans high
      _ < pow2 55 * 2 ^ (s - 2) * den :=
        mul_lt_mul_of_pos_right (mul_lt_mul_of_pos_right (Nat.cast_lt.2 quarters) unit) positive
      _ = 2 ^ (s + 53) * den := by
        rw [pow2_mul_zpow, show ((55 : Nat) : Int) + (s - 2) = s + 53 by omega]
  have above (j : Nat) (size : pow2 j ≤ 4 * m - gapBelow m s) : (j : Int) + (s - 2) < k + 1 := by
    refine (zpow_lt_zpow_iff_right₀ (one_lt_two (α := ℚ))).1 (lt_of_mul_lt_mul_right ?_ positive.le)
    calc (2 : ℚ) ^ ((j : Int) + (s - 2)) * den = pow2 j * 2 ^ (s - 2) * den := by
          rw [pow2_mul_zpow]
      _ ≤ (4 * m - gapBelow m s : Nat) * 2 ^ (s - 2) * den :=
        mul_le_mul_of_nonneg_right (mul_le_mul_of_nonneg_right (Nat.cast_le.2 size) unit.le)
          positive.le
      _ < 2 ^ (k + 1) * den := low.trans_lt upper
  by_cases bottom : s = -1074
  · exact .inl (by omega)
  · have large : pow2 52 ≤ m := normal.resolve_right bottom
    by_cases power : m = pow2 52
    · have near : gapBelow m s = 1 := if_pos ⟨power, by omega⟩
      have := above 53 (by rw [near, power]; decide)
      omega
    · have near : gapBelow m s = 2 := if_neg fun both => power both.1
      have quarters : pow2 54 ≤ 4 * m - 2 := by
        have : pow2 54 = 4 * pow2 52 := by decide
        omega
      have := above 54 (near ▸ quarters)
      omega

omit canonical pos h in
/-- Twice a scaled quotient, compared with a natural number. -/
theorem le_twice_iff (n : Nat) :
    n * (den * pow2 s.toNat) ≤ 2 * (num * pow2 (-s).toNat) ↔ (n : ℚ) * 2 ^ s ≤ 2 * (num / den) := by
  have positive : (0 : ℚ) < den := Nat.cast_pos.2 (Nat.pos_of_ne_zero hd)
  rw [← Nat.mul_assoc 2, le_scaled_iff, mul_div_assoc', le_div_iff₀ positive]
  push_cast
  rfl

omit canonical pos h in
theorem twice_le_iff (n : Nat) :
    2 * (num * pow2 (-s).toNat) ≤ n * (den * pow2 s.toNat) ↔ 2 * ((num : ℚ) / den) ≤ n * 2 ^ s := by
  have positive : (0 : ℚ) < den := Nat.cast_pos.2 (Nat.pos_of_ne_zero hd)
  rw [← Nat.mul_assoc 2, scaled_le_iff, mul_div_assoc', div_le_iff₀ positive]
  push_cast
  rfl

omit canonical in
/-- At the scale of a double, the numbers that round to it are rounded to its mantissa. -/
theorem roundHalfEven_of_roundsTo :
    roundHalfEven (num * pow2 (-s).toNat) (den * pow2 s.toNat) = m := by
  have scaled : 0 < den * pow2 s.toNat := Nat.mul_pos (Nat.pos_of_ne_zero hd) (pow2_pos _)
  have quarter : (2 : ℚ) ^ s = 4 * 2 ^ (s - 2) := by
    rw [show s = 2 + (s - 2) by omega, zpow_add₀ two_ne_zero]
    norm_num
  have unit : (0 : ℚ) < 2 ^ (s - 2) := zpow_pos two_pos _
  have less : ((2 * m - 1 : Nat) : ℚ) * 2 ^ s ≤
      2 * (((4 * m - gapBelow m s : Nat) : ℚ) * 2 ^ (s - 2)) := by
    have gap : (gapBelow m s : ℚ) ≤ 2 := by
      unfold gapBelow
      split <;> norm_num
    rw [quarter, cast_low pos, Nat.cast_sub (by omega)]
    push_cast
    nlinarith
  have more : 2 * (((4 * m + 2 : Nat) : ℚ) * 2 ^ (s - 2)) = ((2 * m + 1 : Nat) : ℚ) * 2 ^ s := by
    rw [quarter]
    push_cast
    ring
  obtain ⟨low, high, inside⟩ := h
  refine roundHalfEven_eq (Nat.pos_of_ne_zero pos) scaled ((le_twice_iff hd _).2 ?_)
    ((twice_le_iff hd _).2 ?_) fun odd => ?_
  · linarith
  · linarith
  · obtain ⟨strict, strict'⟩ := inside odd
    rw [← not_le, ← not_le, twice_le_iff hd, le_twice_iff hd, not_le, not_le]
    constructor <;> linarith

omit canonical in
/-- Just below a power of two, a number that rounds to it is carried at the next smaller scale. -/
theorem roundHalfEven_below (power : m = pow2 52) (above : -1074 < s)
    (scale : log2Ratio num den = s + 51) :
    roundHalfEven (num * pow2 (-(s - 1)).toNat) (den * pow2 (s - 1).toNat) = pow2 53 := by
  have scaled : 0 < den * pow2 (s - 1).toNat := Nat.mul_pos (Nat.pos_of_ne_zero hd) (pow2_pos _)
  have half : (2 : ℚ) ^ (s - 1) = 2 * 2 ^ (s - 2) := by
    rw [show s - 1 = 1 + (s - 2) by omega, zpow_one_add₀ two_ne_zero]
  have low : ((2 * pow2 53 - 1 : Nat) : ℚ) * 2 ^ (s - 1) ≤ 2 * (num / den) := by
    have := h.low
    rw [gapBelow, if_pos ⟨power, above⟩, power] at this
    rw [half]
    norm_num [pow2] at this ⊢
    linarith
  have high : 2 * ((num : ℚ) / den) < ((2 * pow2 53 : Nat) : ℚ) * 2 ^ (s - 1) := by
    have := (log2Ratio_bounds (num_ne_zero_of_roundsTo pos hd h) hd).2
    rw [scale, show s + 51 + 1 = (53 : Nat) + (s - 1) by push_cast; ring, ← pow2_mul_zpow,
      ← div_lt_iff₀ (Nat.cast_pos.2 (Nat.pos_of_ne_zero hd))] at this
    push_cast
    linarith
  refine roundHalfEven_eq (pow2_pos 53) scaled ((le_twice_iff hd _).2 low)
    ((twice_le_iff hd _).2 (high.le.trans ?_)) fun odd => absurd odd (by decide)
  refine mul_le_mul_of_nonneg_right ?_ (zpow_nonneg zero_le_two _)
  exact Nat.cast_le.2 (Nat.le_succ _)

/-- Rounding gives the double that a number rounds to. -/
theorem ofRatio_eq_of_roundsTo (negative : Bool) :
    ofRatio negative num den = .finite negative m s canonical := by
  rw [ofRatio, if_neg (num_ne_zero_of_roundsTo pos hd h)]
  simp only
  obtain scale | ⟨power, above, scale⟩ := log2Ratio_of_roundsTo canonical pos hd h
  · rw [scale, roundHalfEven_of_roundsTo pos hd h, if_neg (by have := canonical.1; omega), pack,
      dif_pos canonical]
  · have carried := roundHalfEven_below pos hd h power above scale
    rw [show max (log2Ratio num den - 52) (-1074) = s - 1 by omega, if_pos carried]
    subst power
    rw [pack, sub_add_cancel, dif_pos canonical]

end

end Double

end Crosstab
