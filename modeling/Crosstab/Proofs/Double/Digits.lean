import Mathlib.Algebra.Group.Nat.Defs
import Crosstab.Double.Reading

namespace Crosstab

theorem isDigit_of_mem_toDigits {n : Nat} {c : Char} (hc : c ∈ Nat.toDigits 10 n) :
    c.isDigit = true := Nat.isDigit_of_mem_toDigits (by decide) (by decide) hc

theorem digitsValue_eq (cs : List Char) : digitsValue cs = Nat.ofDigitChars 10 cs 0 :=
  Nat.ofDigitChars_eq_foldl.symm

theorem digitsValue_toDigits (n : Nat) : digitsValue (Nat.toDigits 10 n) = n := by
  rw [digitsValue_eq, Nat.ofDigitChars_ten_toDigits]

theorem digitsValue_append (cs ds : List Char) :
    digitsValue (cs ++ ds) = digitsValue cs * 10 ^ ds.length + digitsValue ds := by
  rw [digitsValue_eq, Nat.ofDigitChars_append, Nat.ofDigitChars_eq_ofDigitChars_zero,
    ← digitsValue_eq, ← digitsValue_eq, Nat.mul_comm]

theorem digitsValue_replicate_zero (n : Nat) : digitsValue (List.replicate n '0') = 0 := by
  rw [digitsValue_eq, Nat.ofDigitChars_replicate_zero, Nat.mul_zero]

theorem digitsValue_toString (i : Nat) : digitsValue (toString i).toList = i := by
  rw [Nat.toString_eq_repr, Nat.toList_repr, digitsValue_toDigits]

theorem toString_injective {i j : Nat} (h : toString i = toString j) : i = j := by
  rw [← digitsValue_toString i, h, digitsValue_toString]

theorem readDigits?_toDigits (n : Nat) : readDigits? (Nat.toDigits 10 n) = some n := by
  have all : (Nat.toDigits 10 n).all Char.isDigit = true :=
    List.all_eq_true.2 fun _ => isDigit_of_mem_toDigits
  rw [readDigits?, if_pos ⟨Nat.toDigits_ne_nil, all⟩, digitsValue_toDigits]

/-- A front whose characters have a property ends before a character that has not. -/
theorem takeWhile_dropWhile_append {p : Char → Bool} {front rest : List Char}
    (all : ∀ c ∈ front, p c = true) (stop : ∀ c ∈ rest.head?, p c = false) :
    (front ++ rest).takeWhile p = front ∧ (front ++ rest).dropWhile p = rest := by
  have none : rest.takeWhile p = [] ∧ rest.dropWhile p = rest := by
    cases rest with
    | nil => exact ⟨rfl, rfl⟩
    | cons c rest => simp [stop c rfl]
  simp [List.takeWhile_append_of_pos all, List.dropWhile_append_of_pos all, none]

theorem spanDigits_append_of_digits {cs rest : List Char} (digits : ∀ c ∈ cs, c.isDigit = true)
    (stop : ∀ c ∈ rest.head?, c.isDigit = false) : spanDigits (cs ++ rest) = (cs, rest) :=
  Prod.ext_iff.2 (takeWhile_dropWhile_append digits stop)

/-- Digits have no sign. -/
theorem splitSign_digit {c : Char} (digit : c.isDigit = true) (cs : List Char) :
    splitSign (c :: cs) = (false, c :: cs) := by
  have minus : c ≠ '-' := by rintro rfl; cases digit
  have plus : c ≠ '+' := by rintro rfl; cases digit
  simp [splitSign, minus, plus]

theorem splitSign_toDigits (n : Nat) :
    splitSign (Nat.toDigits 10 n) = (false, Nat.toDigits 10 n) := by
  cases hd : Nat.toDigits 10 n with
  | nil => rfl
  | cons c cs => exact splitSign_digit (isDigit_of_mem_toDigits (n := n) (by simp [hd])) cs

/-- An integer is written with its sign and digits. -/
theorem toList_toString (i : Int) : (toString i).toList =
    if 0 ≤ i then Nat.toDigits 10 i.toNat else '-' :: Nat.toDigits 10 (-i).toNat := by
  rw [Int.toString_eq_repr, Int.repr_eq_if]
  split <;> simp

/-- The text of an integer begins with a digit or with its sign. -/
theorem head_toString (i : Int) :
    ∃ c rest, (toString i).toList = c :: rest ∧ (c.isDigit || c == '-') = true := by
  rw [toList_toString]
  split
  · cases hd : Nat.toDigits 10 i.toNat with
    | nil => exact absurd hd Nat.toDigits_ne_nil
    | cons c rest =>
      have digit : c.isDigit = true := isDigit_of_mem_toDigits (n := i.toNat) (by simp [hd])
      exact ⟨c, rest, rfl, by rw [digit]; rfl⟩
  · exact ⟨'-', _, rfl, rfl⟩

theorem readInt?_toString (i : Int) : readInt? (toString i).toList = some i := by
  rw [toList_toString]
  split
  · next h =>
    simp only [readInt?, splitSign_toDigits, readDigits?_toDigits]
    exact congrArg some (Int.toNat_of_nonneg h)
  · next h =>
    have whole : (((-i).toNat : Nat) : Int) = -i := Int.toNat_of_nonneg (by omega)
    simp only [readInt?, splitSign, readDigits?_toDigits, if_true]
    exact congrArg some ((congrArg Neg.neg whole).trans (Int.neg_neg i))

theorem readInt64?_toString (i : Int64) : readInt64? (toString i.toInt).toList = some i := by
  have fits : FitsInt64 i.toInt := ⟨i.minValue_le_toInt, i.toInt_le⟩
  rw [readInt64?, readInt?_toString, Option.bind_eq_bind, Option.bind_some, if_pos fits,
    Int64.ofInt_toInt]

/-- A whole number may be written with a plus sign. -/
theorem readInt?_plus_toString {i : Int} (h : 0 ≤ i) :
    readInt? ('+' :: (toString i).toList) = some i := by
  rw [toList_toString, if_pos h]
  simp only [readInt?, splitSign, readDigits?_toDigits]
  exact congrArg some (Int.toNat_of_nonneg h)

end Crosstab
