import Mathlib.Data.List.TakeWhile
import Crosstab.Json.Draft
import Crosstab.Proofs.Double.Digits

namespace Crosstab

namespace Json

/-! ## Numbers -/

/-- The text does not continue a number in front of it. -/
def Ends (rest : List Char) : Prop :=
  ∀ c ∈ rest.head?, c.isDigit = false ∧ c ≠ '.' ∧ c ≠ 'e' ∧ c ≠ 'E'

theorem ends_nil : Ends [] := by simp [Ends]

def readUnsigned (negative : Bool) (cs : List Char) : Option (Numeral × List Char) := do
  let (whole, cs) ← readWhole cs
  let (fraction, cs) ← readFraction cs
  let (exponent, cs) ← readExponent cs
  return (⟨negative, whole, fraction, exponent⟩, cs)

theorem readNumeral_minus (cs : List Char) :
    readNumeral ('-' :: cs) = readUnsigned true cs := rfl

theorem readNumeral_digits {c : Char} (h : c ≠ '-') (cs : List Char) :
    readNumeral (c :: cs) = readUnsigned false (c :: cs) := by
  simp [readNumeral, readUnsigned, h]

section
variable {rest : List Char} (ends : Ends rest)
include ends

theorem spanDigits_append (cs : List Char) :
    spanDigits (cs ++ rest) = ((spanDigits cs).1, (spanDigits cs).2 ++ rest) := by
  induction cs with
  | nil =>
    cases rest with
    | nil => rfl
    | cons c rest => simp [spanDigits, (ends c rfl).1]
  | cons c cs ih =>
    by_cases digit : c.isDigit
    · simpa [spanDigits, digit] using ih
    · simp [spanDigits, digit]

theorem readWhole_append {cs whole after : List Char} (h : readWhole cs = some (whole, after)) :
    readWhole (cs ++ rest) = some (whole, after ++ rest) := by
  simp only [readWhole, spanDigits_append ends] at h ⊢
  split at h
  · cases h
  · next proper =>
    have digits : spanDigits cs = (whole, after) := Option.some.inj h
    rw [if_neg proper, digits]

theorem readFraction_append {cs after : List Char} {fraction : Option (List Char)}
    (h : readFraction cs = some (fraction, after)) :
    readFraction (cs ++ rest) = some (fraction, after ++ rest) := by
  match cs with
  | [] =>
    obtain ⟨rfl, rfl⟩ : none = fraction ∧ [] = after := by simpa [readFraction] using h
    match rest with
    | [] => rfl
    | c :: rest => simp [readFraction, (ends c rfl).2.1]
  | c :: cs =>
    by_cases point : c = '.'
    · subst point
      simp only [List.cons_append, readFraction, spanDigits_append ends] at h ⊢
      split at h
      · cases h
      · next proper =>
        rw [if_neg proper]
        simpa using h
    · obtain ⟨rfl, rfl⟩ : none = fraction ∧ c :: cs = after := by
        simpa [readFraction, point] using h
      simp [readFraction, point]

theorem readExponent_append {cs after : List Char} {exponent : Option Int}
    (h : readExponent cs = some (exponent, after)) :
    readExponent (cs ++ rest) = some (exponent, after ++ rest) := by
  match cs with
  | [] =>
    obtain ⟨rfl, rfl⟩ : none = exponent ∧ [] = after := by simpa [readExponent] using h
    match rest with
    | [] => rfl
    | c :: rest => simp [readExponent, (ends c rfl).2.2]
  | c :: cs =>
    by_cases letter : c = 'e' ∨ c = 'E'
    · -- without a character after the letter there would be no digits
      have sign : splitSign (cs ++ rest) = ((splitSign cs).1, (splitSign cs).2 ++ rest) := by
        match cs with
        | [] => simp [readExponent, letter, splitSign, spanDigits] at h
        | d :: cs =>
          by_cases minus : d = '-'
          · subst minus; rfl
          · by_cases plus : d = '+'
            · subst plus; rfl
            · simp [splitSign, minus, plus]
      simp only [List.cons_append, readExponent, letter, if_true, sign,
        spanDigits_append ends] at h ⊢
      split at h
      · cases h
      · next proper =>
        rw [if_neg proper]
        simpa using h
    · obtain ⟨rfl, rfl⟩ : none = exponent ∧ c :: cs = after := by
        simpa [readExponent, letter] using h
      simp [readExponent, letter]

theorem readUnsigned_append {negative : Bool} {cs : List Char} {numeral : Numeral}
    (h : readUnsigned negative cs = some (numeral, [])) :
    readUnsigned negative (cs ++ rest) = some (numeral, rest) := by
  simp only [readUnsigned, bind, Option.bind_eq_some_iff] at h ⊢
  obtain ⟨⟨whole, a⟩, hw, ⟨fraction, b⟩, hf, ⟨exponent, c⟩, he, made⟩ := h
  obtain ⟨rfl, rfl⟩ : ⟨negative, whole, fraction, exponent⟩ = numeral ∧ c = [] := by
    simpa [pure] using made
  exact ⟨_, readWhole_append ends hw, _, readFraction_append ends hf, _,
    readExponent_append ends he, rfl⟩

theorem readNumeral_append {cs : List Char} {numeral : Numeral}
    (h : readNumeral cs = some (numeral, [])) :
    readNumeral (cs ++ rest) = some (numeral, rest) := by
  match cs with
  | [] => simp [readNumeral, readWhole, spanDigits] at h
  | c :: cs =>
    by_cases minus : c = '-'
    · subst minus
      exact readUnsigned_append ends h
    · rw [List.cons_append, readNumeral_digits minus]
      rw [readNumeral_digits minus] at h
      exact readUnsigned_append ends h

theorem readNumber_append {cs : List Char} {value : Option Number}
    (h : readNumber cs = (.number value, [])) :
    readNumber (cs ++ rest) = (.number value, rest) := by
  unfold readNumber at h ⊢
  split at h
  · next numeral after hn =>
    obtain ⟨rfl, rfl⟩ : Number.ofNumeral numeral = value ∧ after = [] := by simpa using h
    rw [readNumeral_append ends hn]
  · simp at h

end

/-- A number begins with a sign or a digit. -/
theorem head_of_readNumeral {cs after : List Char} {numeral : Numeral}
    (h : readNumeral cs = some (numeral, after)) :
    ∃ c ∈ cs.head?, c = '-' ∨ c.isDigit = true := by
  match cs with
  | [] => simp [readNumeral, readWhole, spanDigits] at h
  | c :: cs =>
    refine ⟨c, rfl, ?_⟩
    by_cases minus : c = '-'
    · exact .inl minus
    · right
      by_contra other
      simp [readNumeral_digits minus, readUnsigned, readWhole, spanDigits, other] at h

theorem head_toDigits {n : Nat} (pos : 0 < n) : (Nat.toDigits 10 n).head? ≠ some '0' := by
  induction n using Nat.strongRecOn with
  | ind n ih =>
    by_cases small : n < 10
    · have single : ∀ n : Fin 10, 0 < n.val → [Nat.digitChar n].head? ≠ some '0' := by decide
      rw [Nat.toDigits_of_lt_base small]
      exact single ⟨n, small⟩ pos
    · have front := ih (n / 10) (by omega) (by omega)
      rw [Nat.toDigits_of_base_le (by decide) (by omega), List.head?_append]
      cases hd : (Nat.toDigits 10 (n / 10)).head? with
      | none => exact absurd (List.head?_eq_none_iff.1 hd) Nat.toDigits_ne_nil
      | some d => rwa [Option.some_or, ← hd]

theorem readUnsigned_toDigits (negative : Bool) (n : Nat) :
    readUnsigned negative (Nat.toDigits 10 n) =
      some (⟨negative, Nat.toDigits 10 n, none, none⟩, []) := by
  have span : spanDigits (Nat.toDigits 10 n) = (Nat.toDigits 10 n, []) := by
    simp only [spanDigits, Prod.mk.injEq]
    exact ⟨List.takeWhile_eq_self_iff.2 fun _ => isDigit_of_mem_toDigits,
      List.dropWhile_eq_nil_iff.2 fun _ => isDigit_of_mem_toDigits⟩
  have proper : ¬(Nat.toDigits 10 n = [] ∨
      ((Nat.toDigits 10 n).head? = some '0' ∧ Nat.toDigits 10 n ≠ ['0'])) := by
    rintro (none | ⟨zero, more⟩)
    · exact Nat.toDigits_ne_nil none
    · cases n with
      | zero => exact more (Nat.toDigits_zero 10)
      | succ n => exact head_toDigits (Nat.succ_pos n) zero
  have read : readWhole (Nat.toDigits 10 n) = some (Nat.toDigits 10 n, []) := by
    simp only [readWhole, span]
    rw [if_neg proper]
  simp [readUnsigned, read, readFraction, readExponent]

/-- The integers that a reader keeps as integers. -/
def Whole (i : Int) : Prop := -(pow2 63 : Int) ≤ i ∧ i < pow2 64

theorem readNumeral_toDigits (n : Nat) :
    readNumeral (Nat.toDigits 10 n) = some (⟨false, Nat.toDigits 10 n, none, none⟩, []) := by
  have read := readUnsigned_toDigits false n
  cases hd : Nat.toDigits 10 n with
  | nil => exact absurd hd Nat.toDigits_ne_nil
  | cons c cs =>
    have digit : c.isDigit = true := isDigit_of_mem_toDigits (n := n) (by simp [hd])
    rw [readNumeral_digits (by rintro rfl; cases digit), ← hd, read]

theorem readNumber_int {i : Int} (whole : Whole i) :
    readNumber (toString i).toList = (.number (some (.int i)), []) := by
  obtain ⟨low, high⟩ := whole
  have wider : pow2 63 < pow2 64 := by decide
  rw [Int.toString_eq_repr, Int.repr_eq_if]
  split
  · have fits : ¬ pow2 64 ≤ i.toNat := by omega
    have size : max i 0 = i := by omega
    simp [readNumber, readNumeral_toDigits, Number.ofNumeral, digitsValue_toDigits, fits, size]
  · have fits : ¬ pow2 64 ≤ (-i).toNat := by omega
    have kept : (-i).toNat ≤ pow2 63 := by omega
    have size : max (-i) 0 = -i := by omega
    have negative : i < 0 := by omega
    simp [readNumber, readNumeral_minus, readUnsigned_toDigits, Number.ofNumeral,
      digitsValue_toDigits, fits, kept, size, negative]

/-! ## Strings -/

/-- A character is escaped by a letter, by its number, or not at all. -/
theorem escapeChar_cases (c : Char) :
    (∃ letter, letter ≠ 'u' ∧ escaped? letter = some c ∧ escapeChar c = ['\\', letter]) ∨
    (c.toNat < 0x20 ∧ escapeChar c =
      ['\\', 'u', '0', '0', Nat.digitChar (c.toNat / 16), Nat.digitChar (c.toNat % 16)]) ∨
    (c ≠ '"' ∧ c ≠ '\\' ∧ 0x20 ≤ c.toNat ∧ escapeChar c = [c]) := by
  unfold escapeChar
  by_cases quote : c = '"'
  · subst quote; exact .inl ⟨'"', by decide, rfl, rfl⟩
  by_cases backslash : c = '\\'
  · subst backslash; exact .inl ⟨'\\', by decide, rfl, rfl⟩
  by_cases newline : c = '\n'
  · subst newline; exact .inl ⟨'n', by decide, rfl, rfl⟩
  by_cases feed : c = '\r'
  · subst feed; exact .inl ⟨'r', by decide, rfl, rfl⟩
  by_cases tab : c = '\t'
  · subst tab; exact .inl ⟨'t', by decide, rfl, rfl⟩
  by_cases back : c = '\x08'
  · subst back; exact .inl ⟨'b', by decide, rfl, rfl⟩
  by_cases page : c = '\x0c'
  · subst page; exact .inl ⟨'f', by decide, rfl, rfl⟩
  by_cases control : c.toNat < 0x20
  · exact .inr (.inl ⟨control, by simp [*]⟩)
  · exact .inr (.inr ⟨quote, backslash, by omega, by simp [*]⟩)

theorem readPieces_letter {letter c : Char} (named : letter ≠ 'u') (h : escaped? letter = some c)
    (rest : List Char) : readPieces ('\\' :: letter :: rest) =
      (readPieces rest).map fun p => (.char c :: p.1, p.2) := by
  rw [readPieces]
  · rw [h]
    cases readPieces rest <;> rfl
  · exact fun _ _ _ _ _ e => absurd e named

theorem readPieces_control {n : Nat} (control : n < 0x20) (rest : List Char) :
    readPieces ('\\' :: 'u' :: '0' :: '0' :: Nat.digitChar (n / 16) :: Nat.digitChar (n % 16) ::
      rest) = (readPieces rest).map fun p => (.unit n :: p.1, p.2) := by
  have code : ∀ n < 0x20,
      hexUnit? '0' '0' (Nat.digitChar (n / 16)) (Nat.digitChar (n % 16)) = some n := by decide
  rw [readPieces, code n control]
  cases readPieces rest <;> rfl

theorem readPieces_plain {c : Char} (quote : c ≠ '"') (backslash : c ≠ '\\')
    (printable : 0x20 ≤ c.toNat) (rest : List Char) :
    readPieces (c :: rest) = (readPieces rest).map fun p => (.char c :: p.1, p.2) := by
  rw [readPieces]
  · rw [if_neg (by simp [backslash]; omega)]
    cases readPieces rest <;> rfl
  · simpa using quote
  · exact fun _ _ _ _ _ e => absurd e backslash
  · exact fun _ _ e => absurd e backslash

theorem pieceChars_control {n : Nat} (control : n < 0x20) (pieces : List Piece) :
    pieceChars (.unit n :: pieces) = (pieceChars pieces).map (Char.ofNat n :: ·) := by
  have high : isHighSurrogate n = false := by simp [isHighSurrogate]; omega
  have low : isLowSurrogate n = false := by simp [isLowSurrogate]; omega
  match pieces with
  | [] | .char c :: pieces => simp [pieceChars, high, low]
  | .unit m :: pieces => simp [pieceChars, high, low]

theorem readPieces_escapeChar (c : Char) : ∃ piece,
    (∀ rest, readPieces (escapeChar c ++ rest) =
      (readPieces rest).map fun p => (piece :: p.1, p.2)) ∧
    ∀ pieces, pieceChars (piece :: pieces) = (pieceChars pieces).map (c :: ·) := by
  rcases escapeChar_cases c with
    ⟨letter, named, means, text⟩ | ⟨control, text⟩ | ⟨quote, backslash, printable, text⟩
  · exact ⟨.char c, fun rest => text ▸ readPieces_letter named means rest, fun _ => rfl⟩
  · refine ⟨.unit c.toNat, fun rest => text ▸ readPieces_control control rest, fun pieces => ?_⟩
    rw [pieceChars_control control, Char.ofNat_toNat]
  · exact ⟨.char c, fun rest => text ▸ readPieces_plain quote backslash printable rest,
      fun _ => rfl⟩

theorem readPieces_chars (cs rest : List Char) : ∃ pieces,
    readPieces (cs.flatMap escapeChar ++ '"' :: rest) = some (pieces, rest) ∧
      pieceChars pieces = some cs := by
  induction cs with
  | nil => exact ⟨[], rfl, rfl⟩
  | cons c cs ih =>
    obtain ⟨pieces, read, chars⟩ := ih
    obtain ⟨piece, reads, means⟩ := readPieces_escapeChar c
    refine ⟨piece :: pieces, ?_, by rw [means, chars]; rfl⟩
    rw [List.flatMap_cons, List.append_assoc, reads, read]
    rfl

theorem readString_chars (s : String) (rest : List Char) :
    readString (s.toList.flatMap escapeChar ++ '"' :: rest) = some (some s, rest) := by
  obtain ⟨pieces, read, chars⟩ := readPieces_chars s.toList rest
  simp [readString, read, chars]

end Json

end Crosstab
