import Mathlib.Tactic.FieldSimp
import Crosstab.Double.Layout
import Crosstab.Proofs.Double.Digits
import Crosstab.Proofs.Double.Shortest
import Crosstab.Proofs.Naming

namespace Crosstab

/-! ## Decimals -/

theorem lt_pow_length (n : Nat) : n < 10 ^ (Nat.toDigits 10 n).length :=
  (Nat.length_toDigits_le_iff (by decide) Nat.length_toDigits_pos).1 le_rfl

theorem pow_length_le {n : Nat} (pos : n ≠ 0) : 10 ^ ((Nat.toDigits 10 n).length - 1) ≤ n := by
  by_cases single : (Nat.toDigits 10 n).length - 1 = 0
  · rw [single]
    exact Nat.pos_of_ne_zero pos
  · refine not_lt.1 fun below => ?_
    have := (Nat.length_toDigits_le_iff (by decide) (Nat.pos_of_ne_zero single)).2 below
    omega

/-- A power of two stays below the power of ten with a third of the exponent. -/
theorem zpow_two_lt_zpow_ten {k : Nat} (pos : k ≠ 0) :
    (2 : ℚ) ^ (3 * k : Int) < 10 ^ (k : Int) := by
  rw [zpow_mul, zpow_natCast, zpow_natCast]
  exact pow_lt_pow_left₀ (by norm_num) (by norm_num) pos

namespace Double

section
variable {m : Nat} {s : Int} (canonical : Canonical m s) (pos : m ≠ 0)
include canonical pos

/-- The reals that round to a double have neither a huge nor a tiny size. -/
theorem bounds_of_roundsTo {z : ℚ} (h : RoundsTo m s z) :
    (10 : ℚ) ^ (-400 : Int) < z ∧ z < 10 ^ (400 : Int) := by
  obtain ⟨most, least, greatest, -⟩ := canonical
  constructor
  · have first : 1 ≤ 4 * m - gapBelow m s := by
      unfold gapBelow
      split <;> omega
    calc (10 : ℚ) ^ (-400 : Int) < 2 ^ (-(3 * (400 : Nat)) : Int) := by
          rw [zpow_neg, zpow_neg]
          exact inv_strictAnti₀ (zpow_pos two_pos _) (zpow_two_lt_zpow_ten (by decide))
      _ ≤ 2 ^ (s - 2) := zpow_le_zpow_right₀ one_le_two (by omega)
      _ ≤ (4 * m - gapBelow m s : Nat) * 2 ^ (s - 2) :=
        le_mul_of_one_le_left (zpow_nonneg zero_le_two _) (Nat.one_le_cast.2 first)
      _ ≤ z := h.low
  · have last : 4 * m + 2 ≤ pow2 55 := by
      have : pow2 55 = 4 * pow2 53 := by decide
      omega
    calc z ≤ (4 * m + 2 : Nat) * 2 ^ (s - 2) := h.high
      _ ≤ pow2 55 * 2 ^ (969 : Int) :=
        mul_le_mul (Nat.cast_le.2 last) (zpow_le_zpow_right₀ one_le_two (by omega))
          (zpow_nonneg zero_le_two _) (Nat.cast_nonneg _)
      _ = 2 ^ (1024 : Int) := by rw [pow2_mul_zpow]; rfl
      _ ≤ 2 ^ (3 * (400 : Nat) : Int) := zpow_le_zpow_right₀ one_le_two (by decide)
      _ < 10 ^ (400 : Int) := zpow_two_lt_zpow_ten (by decide)

/-- The decimals that round to a double are read as that double. -/
theorem ofDecimal_eq {digits : Nat} {exponent : Int} (h : RoundsTo m s (digits * 10 ^ exponent))
    (negative : Bool) : ofDecimal negative digits exponent = .finite negative m s canonical := by
  obtain ⟨low, high⟩ := bounds_of_roundsTo canonical pos h
  have ten : (0 : ℚ) < 10 ^ exponent := zpow_pos (by norm_num) _
  have nonzero : digits ≠ 0 := by
    rintro rfl
    have : (0 : ℚ) < 10 ^ (-400 : Int) := zpow_pos (by norm_num) _
    rw [Nat.cast_zero, zero_mul] at low
    linarith
  have below : (digits : ℚ) < 10 ^ ((Nat.toDigits 10 digits).length : Int) := by
    exact_mod_cast lt_pow_length digits
  have above : (10 : ℚ) ^ (((Nat.toDigits 10 digits).length : Int) - 1) ≤ digits := by
    have length := Nat.length_toDigits_pos (b := 10) (n := digits)
    rw [← Nat.cast_one, ← Nat.cast_sub length, zpow_natCast]
    exact_mod_cast pow_length_le nonzero
  simp only [ofDecimal, if_neg nonzero]
  generalize (Nat.toDigits 10 digits).length = length at *
  have notHuge : ¬ 400 < exponent + length := fun huge => by
    have : (10 : ℚ) ^ (400 : Int) ≤ 10 ^ ((length : Int) - 1) * 10 ^ exponent := by
      rw [← zpow_add₀ (by norm_num)]
      exact zpow_le_zpow_right₀ (by norm_num) (by omega)
    nlinarith
  have notTiny : ¬ exponent + length < -400 := fun tiny => by
    have : (10 : ℚ) ^ (length : Int) * 10 ^ exponent ≤ 10 ^ (-400 : Int) := by
      rw [← zpow_add₀ (by norm_num)]
      exact zpow_le_zpow_right₀ (by norm_num) (by omega)
    nlinarith
  rw [if_neg notHuge, if_neg notTiny]
  refine ofRatio_eq_of_roundsTo canonical pos (pow10_pos _).ne' ?_ negative
  rwa [Nat.cast_mul, mul_div_assoc, ← zpow_ten_eq_div]

end

/-! ## Texts of decimals -/

theorem head_of_readExponent? {tail : List Char} {e : Int} (h : readExponent? tail = some e) :
    ∀ c ∈ tail.head?, c.isDigit = false ∧ c ≠ '.' := by
  match tail with
  | [] => exact nofun
  | c :: rest =>
    rintro _ ⟨⟩
    by_cases letter : c = 'e' ∨ c = 'E'
    · obtain rfl | rfl := letter <;> decide
    · simp [readExponent?, letter] at h

section
variable {negative : Bool} {whole fraction tail : List Char} {e : Int}
  (nonempty : whole ≠ []) (wholeDigits : ∀ c ∈ whole, c.isDigit = true)
  (exponent : readExponent? tail = some e)
include nonempty wholeDigits exponent

theorem readDecimal?_whole : readDecimal? negative (whole ++ tail) =
    some (ofDecimal negative (digitsValue whole) e) := by
  have head := head_of_readExponent? exponent
  have before := spanDigits_append_of_digits wholeDigits fun c hc => (head c hc).1
  rw [readDecimal?, before]
  cases tail with
  | nil => simp [nonempty, exponent]
  | cons c rest => simp [nonempty, exponent, (head c rfl).2]

theorem readDecimal?_point (fractionDigits : ∀ c ∈ fraction, c.isDigit = true) :
    readDecimal? negative (whole ++ '.' :: (fraction ++ tail)) =
      some (ofDecimal negative (digitsValue (whole ++ fraction)) (e - fraction.length)) := by
  have head := head_of_readExponent? exponent
  have before : spanDigits (whole ++ '.' :: (fraction ++ tail)) =
      (whole, '.' :: (fraction ++ tail)) :=
    spanDigits_append_of_digits wholeDigits (by rintro c ⟨⟩; decide)
  have after := spanDigits_append_of_digits fractionDigits fun c hc => (head c hc).1
  simp [readDecimal?, before, after, nonempty, exponent]

omit exponent in
theorem readDecimal?_fraction (fractionDigits : ∀ c ∈ fraction, c.isDigit = true) :
    readDecimal? negative (whole ++ '.' :: fraction) =
      some (ofDecimal negative (digitsValue (whole ++ fraction)) (0 - fraction.length)) := by
  have none : readExponent? [] = some 0 := rfl
  conv_lhs => rw [← List.append_nil fraction]
  exact readDecimal?_point nonempty wholeDigits none fractionDigits

end

end Double

def isNumeric (c : Char) : Bool := c.isDigit || c == '-' || c == '+' || c == '.' || c == 'e'

theorem all_isNumeric_toDigits (n : Nat) : (Nat.toDigits 10 n).all isNumeric = true :=
  List.all_eq_true.2 fun c hc => by simp [isNumeric, isDigit_of_mem_toDigits hc]

theorem all_isNumeric_toString (i : Int) : (toString i).toList.all isNumeric = true := by
  rw [toList_toString]
  split
  · exact all_isNumeric_toDigits _
  · rw [List.all_cons, all_isNumeric_toDigits]
    rfl

namespace Double

/-- With either sign, the text is read as a decimal of the value. -/
def Denotes (text : List Char) (value : ℚ) : Prop := ∀ negative, ∃ digits exponent,
  readDecimal? negative text = some (ofDecimal negative digits exponent) ∧
    (digits : ℚ) * 10 ^ exponent = value

end Double

namespace RealLayout

open Double (Denotes)

theorem isDigit_of_mem_replicate {n : Nat} {c : Char} (mem : c ∈ List.replicate n '0') :
    c.isDigit = true := by
  rw [List.eq_of_mem_replicate mem]
  rfl

section
variable {digits : List Char} (nonempty : digits ≠ []) (all : ∀ c ∈ digits, c.isDigit = true)
include nonempty all

omit nonempty in
/-- The point stands before all digits, after zeros. -/
theorem denotes_before {place : Int} (small : place ≤ 0) :
    Denotes ('0' :: '.' :: (List.replicate (-place).toNat '0' ++ digits))
      (digitsValue digits * 10 ^ (place - digits.length)) := by
  intro negative
  have fraction : ∀ c ∈ List.replicate (-place).toNat '0' ++ digits, c.isDigit = true :=
    fun c hc => (List.mem_append.1 hc).elim isDigit_of_mem_replicate (all c)
  have read : Double.readDecimal? negative
      (['0'] ++ '.' :: (List.replicate (-place).toNat '0' ++ digits)) = _ :=
    Double.readDecimal?_fraction (by simp) (List.forall_mem_singleton.2 rfl) fraction
  refine ⟨_, _, read, ?_⟩
  have value : digitsValue (['0'] ++ (List.replicate (-place).toNat '0' ++ digits)) =
      digitsValue digits := by
    have front : ['0'] = List.replicate 1 '0' := rfl
    rw [← List.append_assoc, front, List.replicate_append_replicate, digitsValue_append,
      digitsValue_replicate_zero, Nat.zero_mul, Nat.zero_add]
  rw [value, List.length_append, List.length_replicate]
  congr 2
  omega

/-- The point stands after all digits and zeros, if there is one. -/
theorem denotes_after {place : Int} (large : digits.length ≤ place.toNat) (pointZero : Bool) :
    Denotes (digits ++ List.replicate (place.toNat - digits.length) '0' ++
      (if pointZero then ['.', '0'] else []))
      (digitsValue digits * 10 ^ (place - digits.length)) := by
  intro negative
  have whole : ∀ c ∈ digits ++ List.replicate (place.toNat - digits.length) '0',
      c.isDigit = true := fun c hc => (List.mem_append.1 hc).elim (all c) isDigit_of_mem_replicate
  have value : digitsValue (digits ++ List.replicate (place.toNat - digits.length) '0') =
      digitsValue digits * 10 ^ (place.toNat - digits.length) := by
    rw [digitsValue_append, digitsValue_replicate_zero, List.length_replicate, Nat.add_zero]
  have size : (10 : ℚ) ^ (place - digits.length) = 10 ^ (place.toNat - digits.length) := by
    have := List.length_pos_of_ne_nil nonempty
    rw [← zpow_natCast]
    congr 1
    omega
  have proper : digits ++ List.replicate (place.toNat - digits.length) '0' ≠ [] := by
    simp [nonempty]
  cases pointZero with
  | false =>
    refine ⟨_, 0, Double.readDecimal?_whole proper whole rfl, ?_⟩
    rw [value, size]
    push_cast
    ring
  | true =>
    refine ⟨_, _, Double.readDecimal?_fraction proper whole (List.forall_mem_singleton.2 rfl), ?_⟩
    rw [digitsValue_append, value, size, show digitsValue ['0'] = 0 from rfl]
    push_cast
    norm_num
    ring

/-- The point stands between two digits. -/
theorem denotes_between {place : Int} (small : ¬ place ≤ 0)
    (large : ¬ digits.length ≤ place.toNat) :
    Denotes (digits.take place.toNat ++ '.' :: digits.drop place.toNat)
      (digitsValue digits * 10 ^ (place - digits.length)) := by
  intro negative
  have take : ∀ c ∈ digits.take place.toNat, c.isDigit = true :=
    fun c hc => all c (List.mem_of_mem_take hc)
  have drop : ∀ c ∈ digits.drop place.toNat, c.isDigit = true :=
    fun c hc => all c (List.mem_of_mem_drop hc)
  have proper : digits.take place.toNat ≠ [] := by
    simp only [ne_eq, List.take_eq_nil_iff, nonempty, or_false]
    omega
  refine ⟨_, _, Double.readDecimal?_fraction proper take drop, ?_⟩
  rw [List.take_append_drop, List.length_drop]
  congr 2
  omega

/-- Wherever the point stands, the digits denote the same number. -/
theorem denotes_placed (pointZero : Bool) (place : Int) :
    Denotes (placed pointZero digits place)
      (digitsValue digits * 10 ^ (place - digits.length)) := by
  unfold placed
  split
  · next small => exact denotes_before all small
  · next small =>
    split
    · next large => exact denotes_after nonempty all large pointZero
    · next large => exact denotes_between nonempty all small large

theorem denotes_scientific (plusSign : Bool) (e : Int) :
    Denotes (scientific plusSign digits e)
      (digitsValue digits * 10 ^ (e + 1 - digits.length)) := by
  intro negative
  have exponent : Double.readExponent?
      ('e' :: ((if plusSign && decide (0 ≤ e) then ['+'] else []) ++ (toString e).toList)) =
        some e := by
    simp only [Double.readExponent?, true_or, if_true]
    split
    · next plus =>
      have whole : 0 ≤ e := by simp_all
      exact readInt?_plus_toString whole
    · exact readInt?_toString e
  match digits with
  | [d] =>
    exact ⟨_, _, Double.readDecimal?_whole nonempty all exponent, by simp⟩
  | d :: c :: rest =>
    have first : ∀ x ∈ [d], x.isDigit = true := fun x hx => all x (by simp_all)
    have others : ∀ x ∈ c :: rest, x.isDigit = true :=
      fun x hx => all x (List.mem_cons_of_mem d hx)
    have read : Double.readDecimal? negative ([d] ++ '.' :: ((c :: rest) ++ _)) = _ :=
      Double.readDecimal?_point (by simp) first exponent others
    refine ⟨_, _, read, ?_⟩
    rw [List.singleton_append, List.length_cons, List.length_cons, List.length_cons]
    congr 2
    push_cast
    ring

end

section
variable (layout : RealLayout) (d : Decimal)

/-- Every layout denotes the decimal that it writes. -/
theorem denotes_decimal : Denotes (layout.decimal d) d.value := by
  unfold decimal
  split
  · next zero =>
    have value : d.value = 0 := by simp [Decimal.value, zero]
    intro negative
    split
    · exact ⟨0, -1, rfl, by simp [value]⟩
    · exact ⟨0, 0, rfl, by simp [value]⟩
  · next nonzero =>
    have all : ∀ c ∈ Nat.toDigits 10 d.digits, c.isDigit = true := fun _ => isDigit_of_mem_toDigits
    simp only
    split
    · have := denotes_placed Nat.toDigits_ne_nil all layout.pointZero
        (d.exponent + (Nat.toDigits 10 d.digits).length)
      rwa [digitsValue_toDigits, add_sub_cancel_right] at this
    · have := denotes_scientific Nat.toDigits_ne_nil all layout.plusSign
        (d.exponent + (Nat.toDigits 10 d.digits).length - 1)
      rwa [digitsValue_toDigits, sub_add_cancel, add_sub_cancel_right] at this

/-- A decimal begins with a digit. -/
theorem head_decimal : ∃ c rest, layout.decimal d = c :: rest ∧ c.isDigit = true := by
  obtain ⟨c, rest, digits⟩ :=
    List.exists_cons_of_ne_nil (Nat.toDigits_ne_nil (b := 10) (n := d.digits))
  have digit : c.isDigit = true := isDigit_of_mem_toDigits (n := d.digits) (by simp [digits])
  unfold decimal
  split
  · split <;> exact ⟨'0', _, rfl, rfl⟩
  · simp only [digits]
    split
    · unfold placed
      split
      · exact ⟨'0', _, rfl, rfl⟩
      · split
        · exact ⟨c, _, rfl, digit⟩
        · next some _ =>
          obtain ⟨n, hn⟩ : ∃ n, (d.exponent + ((c :: rest).length : Int)).toNat = n + 1 :=
            ⟨_, (Nat.succ_pred (by omega)).symm⟩
          rw [hn]
          exact ⟨c, _, rfl, digit⟩
    · cases rest <;> exact ⟨c, _, rfl, digit⟩

/-- With a fraction digit at the least, a decimal has a point or an exponent. -/
theorem exists_mem_decimal (h : layout.pointZero = true) :
    ∃ c ∈ layout.decimal d, c = '.' ∨ c = 'e' := by
  unfold decimal
  rw [h]
  split
  · exact ⟨'.', by decide, .inl rfl⟩
  · simp only
    split
    · refine ⟨'.', ?_, .inl rfl⟩
      unfold placed
      split
      · simp
      · split <;> simp
    · refine ⟨'e', ?_, .inr rfl⟩
      unfold scientific
      simp

/-- Decimals have numeric characters only. -/
theorem all_isNumeric_decimal : (layout.decimal d).all isNumeric = true := by
  have digits := all_isNumeric_toDigits d.digits
  have zero : isNumeric '0' = true := rfl
  have point : isNumeric '.' = true := rfl
  have plus : isNumeric '+' = true := rfl
  have letter : isNumeric 'e' = true := rfl
  have part {cs : List Char} (sub : cs ⊆ Nat.toDigits 10 d.digits) : cs.all isNumeric = true :=
    List.all_eq_true.2 fun c hc => List.all_eq_true.1 digits c (sub hc)
  unfold decimal
  split
  · split <;> decide
  · simp only
    split
    · unfold placed
      split
      · simp [zero, point, digits]
      · split
        · split <;> simp [zero, point, digits]
        · simp [point, part (List.take_subset _ _), part (List.drop_subset _ _)]
    · unfold scientific
      generalize Nat.toDigits 10 d.digits = cs at digits
      have sign : (if layout.plusSign && decide (0 ≤ d.exponent + (cs.length : Int) - 1) then ['+']
          else []).all isNumeric = true := by split <;> simp [plus]
      have exponent := all_isNumeric_toString (d.exponent + cs.length - 1)
      match cs with
      | [] | [c] | c :: e :: rest => simp_all

end

end RealLayout

namespace Double

theorem read?_digit {c : Char} (digit : c.isDigit = true) (cs : List Char) :
    read? (c :: cs) = readDecimal? false (c :: cs) ∧
      read? ('-' :: c :: cs) = readDecimal? true (c :: cs) := by
  have word (w : String) (letter : w.toList.head?.any Char.isDigit = false) :
      String.ofList ((c :: cs).map Char.toLower) ≠ w := by
    rintro rfl
    simp [toLower_of_isDigit digit, digit] at letter
  have nan := word "nan" (by decide)
  have inf := word "inf" (by decide)
  have infinity := word "infinity" (by decide)
  constructor
  · simp only [read?, splitSign_digit digit, nan, inf, infinity, if_false, or_self]
  · simp only [read?, splitSign, nan, inf, infinity, if_false, or_self]

/-- A finite double is read back from any layout. -/
theorem read?_write (layout : RealLayout) {v : Double} (h : v.isFinite = true) :
    read? (layout.write v).toList = some v := by
  cases v with
  | nan | infinity => cases h
  | finite negative m s canonical =>
    simp only [RealLayout.write, RealLayout.finite, String.toList_ofList]
    generalize hd : (if m = 0 then ⟨0, 0⟩ else shortest layout.tie m s : Decimal) = d
    obtain ⟨k, e, read, value⟩ := layout.denotes_decimal d negative
    obtain ⟨c, rest, text, digit⟩ := layout.head_decimal d
    rw [text] at read ⊢
    have denoted : read? ((if negative = true then ['-'] else []) ++ c :: rest) =
        some (ofDecimal negative k e) := by
      cases negative with
      | false => exact (read?_digit digit rest).1.trans read
      | true => exact (read?_digit digit rest).2.trans read
    rw [denoted]
    by_cases zero : m = 0
    · subst zero
      have none : k = 0 := by
        rw [← hd, if_pos rfl, Decimal.value, Nat.cast_zero, zero_mul] at value
        simpa [zpow_ne_zero] using value
      obtain rfl : s = -1074 := canonical.2.2.2.resolve_left (by decide)
      subst none
      rfl
    · have rounds := roundsTo_shortest canonical zero layout.tie
      rw [if_neg zero] at hd
      rw [hd, ← value] at rounds
      rw [ofDecimal_eq canonical zero rounds]

section
variable (layout : RealLayout) {v : Double} (h : v.isFinite = true)
include h

theorem all_isNumeric_write : (layout.write v).toList.all isNumeric = true := by
  cases v with
  | nan | infinity => cases h
  | finite negative =>
    rw [RealLayout.write, RealLayout.finite, String.toList_ofList, List.all_append,
      RealLayout.all_isNumeric_decimal, Bool.and_true]
    cases negative <;> rfl

/-- The text of a real begins with a digit or with its sign. -/
theorem head_write :
    ∃ c rest, (layout.write v).toList = c :: rest ∧ (c.isDigit || c == '-') = true := by
  cases v with
  | nan | infinity => cases h
  | finite negative =>
    rw [RealLayout.write, RealLayout.finite, String.toList_ofList]
    cases negative with
    | true => exact ⟨'-', _, rfl, rfl⟩
    | false =>
      obtain ⟨c, rest, text, digit⟩ := layout.head_decimal _
      exact ⟨c, rest, text, by rw [digit]; rfl⟩

/-- With a fraction digit at the least, a real is never read as an integer. -/
theorem readInt64?_write (pointZero : layout.pointZero = true) :
    readInt64? (layout.write v).toList = none := by
  have none {cs : List Char} (other : ∃ c ∈ cs, c = '.' ∨ c = 'e') : readDigits? cs = none := by
    obtain ⟨c, mem, eq⟩ := other
    rw [readDigits?, if_neg]
    rintro ⟨-, all⟩
    have digit := List.all_eq_true.1 all c mem
    obtain rfl | rfl := eq <;> cases digit
  have unread : readInt? (layout.write v).toList = Option.none := by
    cases v with
    | nan | infinity => cases h
    | finite negative m s canonical =>
      rw [RealLayout.write, RealLayout.finite, String.toList_ofList]
      generalize hd : (if m = 0 then ⟨0, 0⟩ else shortest _ m s : Decimal) = d
      have other := layout.exists_mem_decimal d pointZero
      obtain ⟨c, rest, text, digit⟩ := layout.head_decimal d
      rw [text] at other ⊢
      cases negative with
      | false => simp [readInt?, splitSign_digit digit, none other]
      | true => simp [readInt?, splitSign, none other]
  simp [readInt64?, unread]

end

section
variable {v : Double} (h : v.isFinite = true)
include h

theorem read?_literal : read? v.literal.toList = some v := read?_write _ h

theorem all_isNumeric_literal : v.literal.toList.all isNumeric = true := all_isNumeric_write _ h

theorem head_literal :
    ∃ c rest, v.literal.toList = c :: rest ∧ (c.isDigit || c == '-') = true := head_write _ h

theorem readInt64?_literal : readInt64? v.literal.toList = none := readInt64?_write _ h rfl

end

end Double

end Crosstab
