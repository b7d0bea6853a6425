import Crosstab.Proofs.Double.Nearest

/-!
# Numerals

Which texts denote a number, and which number: a sign and digits for an integer; for a real a sign
and the name of a value that is no number, or digits before or after a point and an exponent.

* `DenotesInt` and `DenotesReal` are these readings, given as grammars; the real of a decimal is the
  nearest double;
* `readInt?_eq_some_iff` and `Double.read?_eq_some_iff`: exactly these texts are read, as these
  numbers.
-/

namespace Crosstab

/-- A sign, and whether it is minus. -/
inductive DenotesSign : List Char → Bool → Prop
  | none : DenotesSign [] false
  | plus : DenotesSign ['+'] false
  | minus : DenotesSign ['-'] true

/-- A sign and digits denote an integer. -/
inductive DenotesInt : List Char → Int → Prop
  | mk {sign digits : List Char} {negative : Bool} (signed : DenotesSign sign negative)
      (nonempty : digits ≠ []) (all : ∀ c ∈ digits, c.isDigit = true) :
      DenotesInt (sign ++ digits) (if negative then -(digitsValue digits : Int)
        else digitsValue digits)

/-- What may follow the digits before the point: nothing, or the point and the digits after it. -/
inductive DenotesFraction : List Char → List Char → Prop
  | none : DenotesFraction [] []
  | point {digits : List Char} (all : ∀ c ∈ digits, c.isDigit = true) :
      DenotesFraction ('.' :: digits) digits

/-- What may follow the digits: nothing, or the letter and the exponent. -/
inductive DenotesExponent : List Char → Int → Prop
  | none : DenotesExponent [] 0
  | letter {c : Char} {text : List Char} {e : Int} (letter : c = 'e' ∨ c = 'E')
      (exponent : DenotesInt text e) : DenotesExponent (c :: text) e

/-- A text that is not signed denotes a double of either sign. -/
inductive DenotesDecimal (negative : Bool) : List Char → Double → Prop
  | mk {whole point fraction tail : List Char} {e : Int} {v : Double}
      (wholeDigits : ∀ c ∈ whole, c.isDigit = true) (pointed : DenotesFraction point fraction)
      (exponent : DenotesExponent tail e) (nonempty : whole ++ fraction ≠ [])
      (nearest : Double.Nearest negative
        (digitsValue (whole ++ fraction) * 10 ^ (e - fraction.length)) v) :
      DenotesDecimal negative (whole ++ (point ++ tail)) v

/-- A text denotes a double. -/
inductive DenotesReal : List Char → Double → Prop
  | nan {sign word : List Char} {negative : Bool} (signed : DenotesSign sign negative)
      (same : word.map Char.toLower = "nan".toList) : DenotesReal (sign ++ word) .nan
  | infinity {sign word : List Char} {negative : Bool} (signed : DenotesSign sign negative)
      (same : word.map Char.toLower = "inf".toList ∨ word.map Char.toLower = "infinity".toList) :
      DenotesReal (sign ++ word) (.infinity negative)
  | decimal {sign rest : List Char} {negative : Bool} {v : Double}
      (signed : DenotesSign sign negative) (denotes : DenotesDecimal negative rest v) :
      DenotesReal (sign ++ rest) v

/-! ## Signs -/

/-- A text is its sign and what follows it. -/
theorem denotesSign_splitSign (cs : List Char) :
    ∃ sign, cs = sign ++ (splitSign cs).2 ∧ DenotesSign sign (splitSign cs).1 := by
  unfold splitSign
  split
  · exact ⟨['-'], rfl, .minus⟩
  · exact ⟨['+'], rfl, .plus⟩
  · exact ⟨[], rfl, .none⟩

/-- A sign is split off where what follows it does not begin with another. -/
theorem splitSign_append {sign rest : List Char} {negative : Bool}
    (signed : DenotesSign sign negative) (unsigned : splitSign rest = (false, rest)) :
    splitSign (sign ++ rest) = (negative, rest) := by
  cases signed with
  | none => exact unsigned
  | plus => rfl
  | minus => rfl

theorem splitSign_of_head {c : Char} (plus : c ≠ '+') (minus : c ≠ '-') (cs : List Char) :
    splitSign (c :: cs) = (false, c :: cs) := by
  simp [splitSign, minus, plus]

/-! ## Integers -/

theorem readDigits?_eq_some_iff {cs : List Char} {n : Nat} :
    readDigits? cs = some n ↔ cs ≠ [] ∧ (∀ c ∈ cs, c.isDigit = true) ∧ digitsValue cs = n := by
  simp only [readDigits?, Option.ite_none_right_eq_some, Option.some.injEq, List.all_eq_true,
    and_assoc]

theorem splitSign_digits {cs : List Char} (all : ∀ c ∈ cs, c.isDigit = true) :
    splitSign cs = (false, cs) := by
  cases cs with
  | nil => rfl
  | cons c rest => exact splitSign_digit (all c List.mem_cons_self) rest

theorem readInt?_eq_some_iff {cs : List Char} {i : Int} : readInt? cs = some i ↔ DenotesInt cs i := by
  constructor
  · intro h
    obtain ⟨sign, text, signed⟩ := denotesSign_splitSign cs
    rw [readInt?] at h
    generalize splitSign cs = parts at h text signed
    obtain ⟨negative, digits⟩ := parts
    obtain ⟨i, read, rfl⟩ := Option.map_eq_some_iff.1 h
    obtain ⟨n, natural, ⟨⟩⟩ := Option.bind_eq_some_iff.1 read
    obtain ⟨nonempty, all, rfl⟩ := readDigits?_eq_some_iff.1 natural
    rw [text]
    exact .mk signed nonempty all
  · rintro ⟨signed, nonempty, all⟩
    rw [readInt?, splitSign_append signed (splitSign_digits all)]
    simp only [readDigits?_eq_some_iff.2 ⟨nonempty, all, rfl⟩]
    rfl

/-- The integers of 64 bits are read from their texts. -/
theorem readInt64?_eq_some_iff {cs : List Char} {i : Int64} :
    readInt64? cs = some i ↔ DenotesInt cs i.toInt := by
  rw [← readInt?_eq_some_iff]
  cases hi : readInt? cs with
  | none => simp [readInt64?, hi]
  | some n =>
    simp only [readInt64?, hi, Option.bind_eq_bind, Option.bind_some,
      Option.ite_none_right_eq_some, Option.some.injEq]
    constructor
    · rintro ⟨fits, rfl⟩
      exact (Int64.toInt_ofInt_of_le fits.1 (Int.lt_of_le_of_lt fits.2 (by decide))).symm
    · rintro rfl
      exact ⟨⟨i.minValue_le_toInt, i.toInt_le⟩, Int64.ofInt_toInt _⟩

/-! ## Reals -/

namespace Double

theorem readExponent?_eq_some_iff {cs : List Char} {e : Int} :
    readExponent? cs = some e ↔ DenotesExponent cs e := by
  constructor
  · intro h
    cases cs with
    | nil =>
      cases Option.some.inj h
      exact .none
    | cons c rest =>
      obtain ⟨letter, read⟩ := Option.ite_none_right_eq_some.1 h
      exact .letter letter (readInt?_eq_some_iff.1 read)
  · intro h
    cases h with
    | none => rfl
    | letter letter exponent =>
      rw [readExponent?, if_pos letter]
      exact readInt?_eq_some_iff.2 exponent

theorem all_isDigit_takeWhile {cs : List Char} :
    ∀ c ∈ cs.takeWhile Char.isDigit, c.isDigit = true :=
  List.all_eq_true.1 List.all_takeWhile

/-- The digits after a point, and what follows them. -/
def splitFraction : List Char → List Char × List Char
  | '.' :: rest => spanDigits rest
  | rest => ([], rest)

theorem readDecimal?_eq (negative : Bool) (cs : List Char) : readDecimal? negative cs =
    if (spanDigits cs).1 = [] ∧ (splitFraction (spanDigits cs).2).1 = [] then none
    else (readExponent? (splitFraction (spanDigits cs).2).2).map fun e =>
      ofDecimal negative (digitsValue ((spanDigits cs).1 ++ (splitFraction (spanDigits cs).2).1))
        (e - (splitFraction (spanDigits cs).2).1.length) := rfl

theorem denotesFraction_splitFraction (cs : List Char) :
    ∃ point, cs = point ++ (splitFraction cs).2 ∧ DenotesFraction point (splitFraction cs).1 := by
  unfold splitFraction
  split
  · next rest =>
    refine ⟨'.' :: rest.takeWhile Char.isDigit, ?_, .point all_isDigit_takeWhile⟩
    exact congrArg _ List.takeWhile_append_dropWhile.symm
  · exact ⟨[], rfl, .none⟩

section
variable {point fraction tail : List Char} (pointed : DenotesFraction point fraction)
  (head : ∀ c ∈ tail.head?, c.isDigit = false ∧ c ≠ '.')
include pointed head

theorem splitFraction_append : splitFraction (point ++ tail) = (fraction, tail) := by
  cases pointed with
  | none =>
    match tail with
    | [] => rfl
    | c :: rest => simp [splitFraction, (head c rfl).2]
  | point all => exact spanDigits_append_of_digits all fun c hc => (head c hc).1

theorem isDigit_head_point_append : ∀ c ∈ (point ++ tail).head?, c.isDigit = false := by
  cases pointed with
  | none => exact fun c hc => (head c hc).1
  | point all =>
    rintro c ⟨⟩
    decide

end

/-- What is read as an unsigned decimal: digits, a point and digits, and an exponent. -/
theorem readDecimal?_eq_some_iff {negative : Bool} {cs : List Char} {v : Double} :
    readDecimal? negative cs = some v ↔ DenotesDecimal negative cs v := by
  constructor
  · intro h
    have front : cs = (spanDigits cs).1 ++ (spanDigits cs).2 :=
      List.takeWhile_append_dropWhile.symm
    have digits : ∀ c ∈ (spanDigits cs).1, c.isDigit = true := all_isDigit_takeWhile
    rw [readDecimal?_eq] at h
    generalize spanDigits cs = parts at front digits h
    obtain ⟨whole, rest⟩ := parts
    obtain ⟨point, back, pointed⟩ := denotesFraction_splitFraction rest
    dsimp only at front digits h
    generalize splitFraction rest = parts at back pointed h
    obtain ⟨fraction, tail⟩ := parts
    obtain ⟨some, read⟩ := Option.ite_none_left_eq_some.1 h
    obtain ⟨e, exponent, rfl⟩ := Option.map_eq_some_iff.1 read
    rw [front, back]
    refine .mk digits pointed (readExponent?_eq_some_iff.1 exponent) ?_ (nearest_ofDecimal ..)
    rwa [Ne, List.append_eq_nil_iff]
  · rintro ⟨digits, pointed, exponent, nonempty, nearest⟩
    have read := readExponent?_eq_some_iff.2 exponent
    have head := head_of_readExponent? read
    have span := spanDigits_append_of_digits digits (isDigit_head_point_append pointed head)
    rw [readDecimal?_eq, span]
    dsimp only
    rw [splitFraction_append pointed head, if_neg (by rwa [← List.append_eq_nil_iff]), read,
      Option.map_some, (nearest_ofDecimal ..).unique nearest]

/-- A decimal begins with a digit or with the point. -/
theorem head_of_denotesDecimal {negative : Bool} {cs : List Char} {v : Double}
    (h : DenotesDecimal negative cs v) : ∃ c rest, cs = c :: rest ∧ (c.isDigit = true ∨ c = '.') := by
  obtain ⟨digits, pointed, exponent, nonempty, nearest⟩ := h
  rename_i whole point fraction tail e
  cases whole with
  | cons c rest => exact ⟨c, _, rfl, .inl (digits c List.mem_cons_self)⟩
  | nil =>
    cases pointed with
    | none => exact absurd rfl nonempty
    | point all => exact ⟨'.', _, rfl, .inr rfl⟩

theorem string_ofList_eq_iff {cs : List Char} {s : String} :
    String.ofList cs = s ↔ cs = s.toList := by
  constructor
  · rintro rfl
    exact String.toList_ofList.symm
  · rintro rfl
    exact String.ofList_toList

/-- A word does not begin with a sign. -/
theorem splitSign_word {word : List Char} {c : Char} {rest : List Char}
    (same : word.map Char.toLower = c :: rest) (plus : '+'.toLower ≠ c) (minus : '-'.toLower ≠ c) :
    splitSign word = (false, word) := by
  cases word with
  | nil => rfl
  | cons d others =>
    obtain ⟨rfl, -⟩ := List.cons.inj same
    exact splitSign_of_head (fun h => plus (h ▸ rfl)) (fun h => minus (h ▸ rfl)) others

/-- Exactly the texts that denote a double are read, as the double that they denote. -/
theorem read?_eq_some_iff {cs : List Char} {v : Double} : read? cs = some v ↔ DenotesReal cs v := by
  constructor
  · intro h
    obtain ⟨sign, text, signed⟩ := denotesSign_splitSign cs
    rw [read?] at h
    generalize splitSign cs = parts at h text signed
    obtain ⟨negative, rest⟩ := parts
    subst text
    simp only [string_ofList_eq_iff] at h
    split at h
    · next same =>
      cases h
      exact .nan signed same
    split at h
    · next same =>
      cases h
      exact .infinity signed same
    · exact .decimal signed (readDecimal?_eq_some_iff.1 h)
  · intro h
    cases h with
    | nan signed same =>
      rw [read?, splitSign_append signed (splitSign_word same (by decide) (by decide))]
      simp only [string_ofList_eq_iff, if_pos same]
    | @infinity sign word negative signed same =>
      have unsigned : splitSign word = (false, word) := by
        obtain same | same := same <;> exact splitSign_word same (by decide) (by decide)
      have other : word.map Char.toLower ≠ "nan".toList := by
        obtain same | same := same <;> rw [same] <;> decide
      rw [read?, splitSign_append signed unsigned]
      simp only [string_ofList_eq_iff, if_neg other, if_pos same]
    | decimal signed denotes =>
      obtain ⟨c, others, rfl, front⟩ := head_of_denotesDecimal denotes
      have unsigned : splitSign (c :: others) = (false, c :: others) := by
        obtain digit | rfl := front
        · exact splitSign_digit digit others
        · rfl
      -- No word begins with a digit or a point.
      have word (w : List Char) (letter : w.head?.any (fun d => d.isDigit || d == '.') = false) :
          (c :: others).map Char.toLower ≠ w := by
        rintro rfl
        obtain digit | rfl := front
        · simp [toLower_of_isDigit digit, digit] at letter
        · exact Bool.noConfusion letter
      have neither := not_or.2 ⟨word "inf".toList (by decide), word "infinity".toList (by decide)⟩
      rw [read?, splitSign_append signed unsigned]
      simp only [string_ofList_eq_iff]
      rw [if_neg (word "nan".toList (by decide)), if_neg neither,
        readDecimal?_eq_some_iff.2 denotes]

end Double

end Crosstab
