import Crosstab.Proofs.Double.Range
import Crosstab.Proofs.Json.Tokens

namespace Crosstab.Json

mutual

/-- The draft that is a value, as it is read from the value's text. -/
def Draft.ofJson : Json → Draft
  | .null => .null
  | .bool b => .bool b
  | .int i => .number (some (.int i))
  | .real v => .number (some (.real v))
  | .string s => .string (some s)
  | .array items => .array (Draft.ofJsons items)
  | .object fields => .object (Draft.ofEntries fields)

def Draft.ofJsons : List Json → List Draft
  | [] => []
  | item :: items => Draft.ofJson item :: Draft.ofJsons items

def Draft.ofEntries : List (String × Json) → List (Option String × Draft)
  | [] => []
  | (name, value) :: fields => (some name, Draft.ofJson value) :: Draft.ofEntries fields

end

namespace Draft

theorem ofJsons_eq_map (items : List Json) : ofJsons items = items.map ofJson := by
  induction items with
  | nil => rfl
  | cons item items ih => rw [ofJsons, ih, List.map_cons]

theorem ofEntries_eq_map (fields : List (String × Json)) :
    ofEntries fields = fields.map fun f => (some f.1, ofJson f.2) := by
  induction fields with
  | nil => rfl
  | cons field fields ih => rw [ofEntries, ih, List.map_cons]

mutual

/-- Every number in a draft has a property. -/
def Numbers (P : Number → Prop) : Draft → Prop
  | number (some n) => P n
  | array items => NumbersItems P items
  | object fields => NumbersFields P fields
  | number none | null | bool _ | string _ | fault => True

def NumbersItems (P : Number → Prop) : List Draft → Prop
  | [] => True
  | item :: items => Numbers P item ∧ NumbersItems P items

def NumbersFields (P : Number → Prop) : List (Option String × Draft) → Prop
  | [] => True
  | (_, value) :: fields => Numbers P value ∧ NumbersFields P fields

end

variable {P : Number → Prop}

theorem numbersItems_iff {items : List Draft} :
    NumbersItems P items ↔ ∀ d ∈ items, d.Numbers P := by
  induction items with
  | nil => simp [NumbersItems]
  | cons item items ih => simp [NumbersItems, ih]

theorem numbersFields_iff {fields : List (Option String × Draft)} :
    NumbersFields P fields ↔ ∀ f ∈ fields, f.2.Numbers P := by
  induction fields with
  | nil => simp [NumbersFields]
  | cons field fields ih => simp [NumbersFields, ih]

@[simp]
theorem numbers_ofJson_array {items : List Json} :
    (ofJson (.array items)).Numbers P ↔ ∀ item ∈ items, (ofJson item).Numbers P := by
  rw [ofJson, Numbers, numbersItems_iff, ofJsons_eq_map, List.forall_mem_map]

@[simp]
theorem numbers_ofJson_object {fields : List (String × Json)} :
    (ofJson (.object fields)).Numbers P ↔ ∀ f ∈ fields, (ofJson f.2).Numbers P := by
  rw [ofJson, Numbers, numbersFields_iff, ofEntries_eq_map, List.forall_mem_map]

@[simp]
theorem numbers_ofJson_string (s : String) : (ofJson (.string s)).Numbers P := trivial

@[simp]
theorem numbers_ofJson_bool (b : Bool) : (ofJson (.bool b)).Numbers P := trivial

end Draft

/-- The text of a real is read as the same real. -/
def RealReadsBack (v : Double) : Prop :=
  readNumber (realChars v) = (.number (some (.real v)), [])

def Number.ReadsBack : Number → Prop
  | int i => Whole i
  | real v => RealReadsBack v

/-! ## One step of reading -/

/-- The text starts with a part of a value, not with a blank or the end of an array. -/
def Starts (cs : List Char) : Prop := ∃ c ∈ cs.head?, isBlank c = false ∧ c ≠ ']'

theorem Starts.append {cs : List Char} (h : Starts cs) (rest : List Char) :
    Starts (cs ++ rest) := by
  obtain ⟨c, hc, plain⟩ := h
  exact ⟨c, by simp_all, plain⟩

/-- A number is told from other values by its first character. -/
theorem head_of_readNumber {cs rest : List Char} {value : Option Number}
    (h : readNumber cs = (.number value, rest)) :
    ∃ c tail, cs = c :: tail ∧ (c = '-' ∨ c.isDigit = true) := by
  unfold readNumber at h
  split at h
  · next read =>
    obtain ⟨c, hc, digit⟩ := head_of_readNumeral read
    cases cs with
    | nil => cases hc
    | cons d tail => cases hc; exact ⟨c, tail, rfl, digit⟩
  · cases h

/-- The first character of a number starts no other value. -/
theorem plain_of_digit {c : Char} (h : c = '-' ∨ c.isDigit = true) :
    c ≠ ' ' ∧ c ≠ '\t' ∧ c ≠ '\n' ∧ c ≠ '\r' ∧ c ≠ 'n' ∧ c ≠ 't' ∧ c ≠ 'f' ∧ c ≠ '"' ∧ c ≠ '[' ∧
      c ≠ '{' := by
  rcases h with rfl | digit
  · decide
  · refine ⟨?_, ?_, ?_, ?_, ?_, ?_, ?_, ?_, ?_, ?_⟩ <;> rintro rfl <;> cases digit

theorem readValue_number {cs rest : List Char} {value : Option Number}
    (h : readNumber cs = (.number value, rest)) (fuel : Nat) :
    readValue (fuel + 1) cs = (.number value, rest) := by
  obtain ⟨c, tail, rfl, digit⟩ := head_of_readNumber h
  rw [← h]
  simp [readValue, skipBlanks, isBlank, plain_of_digit digit]

theorem readValue_array {cs : List Char} (starts : Starts cs) (fuel : Nat) :
    readValue (fuel + 1) ('[' :: cs) =
      (.array (readItems fuel cs).1, (readItems fuel cs).2) := by
  obtain ⟨c, hc, plain, inside⟩ := starts
  cases cs with
  | nil => cases hc
  | cons d tail =>
    cases hc
    simp [readValue, skipBlanks, plain, inside, show isBlank '[' = false from rfl]

theorem readValue_object (name : String) (cs : List Char) (fuel : Nat) :
    readValue (fuel + 1) ('{' :: (stringChars name ++ cs)) =
      (.object (readFields fuel (stringChars name ++ cs)).1,
        (readFields fuel (stringChars name ++ cs)).2) := rfl

theorem ends_itemsChars (items : List Json) (rest : List Char) :
    Ends (itemsChars items ++ rest) := by
  cases items <;> simp [itemsChars, Ends]

theorem ends_fieldsChars (fields : List (String × Json)) (rest : List Char) :
    Ends (fieldsChars fields ++ rest) := by
  cases fields <;> simp [fieldsChars, Ends]

theorem starts_number {cs rest : List Char} {value : Option Number}
    (h : readNumber cs = (.number value, rest)) : Starts cs := by
  obtain ⟨c, tail, rfl, digit⟩ := head_of_readNumber h
  obtain ⟨blank, tab, line, feed, -⟩ := plain_of_digit digit
  refine ⟨c, rfl, by simp [isBlank, *], ?_⟩
  rintro rfl
  rcases digit with digit | digit <;> cases digit

theorem starts_chars {j : Json} (numbers : (Draft.ofJson j).Numbers Number.ReadsBack) :
    Starts j.chars := by
  match j with
  | .int i => exact starts_number (readNumber_int numbers)
  | .real v => exact starts_number numbers
  | .null | .bool true | .bool false | .string s | .array [] | .array (_ :: _) | .object []
  | .object (_ :: _) => exact ⟨_, rfl, rfl, by decide⟩

/-- There is fuel for the first step. -/
theorem exists_fuel {j : Json} (numbers : (Draft.ofJson j).Numbers Number.ReadsBack) {fuel : Nat}
    (long : 2 * j.chars.length ≤ fuel) : ∃ f, fuel = f + 1 := by
  obtain ⟨c, hc, -⟩ := starts_chars numbers
  cases cs : j.chars with
  | nil => simp [cs] at hc
  | cons c tail => exact ⟨fuel - 1, by simp [cs] at long; omega⟩

theorem stringChars_append (s : String) (rest : List Char) :
    stringChars s ++ rest = '"' :: (s.toList.flatMap escapeChar ++ '"' :: rest) := by
  simp [stringChars]

theorem readFields_next (name : String) {d : Draft} {fuel : Nat} {cs rest : List Char}
    (value : readValue fuel cs = (d, ',' :: rest)) :
    readFields (fuel + 1) (stringChars name ++ ':' :: cs) =
      ((some name, d) :: (readFields fuel rest).1, (readFields fuel rest).2) := by
  rw [stringChars_append]
  simp [readFields, skipBlanks, isBlank, readString_chars, value]

theorem readFields_last (name : String) {d : Draft} {fuel : Nat} {cs rest : List Char}
    (value : readValue fuel cs = (d, '}' :: rest)) :
    readFields (fuel + 1) (stringChars name ++ ':' :: cs) = ([(some name, d)], rest) := by
  rw [stringChars_append]
  simp [readFields, skipBlanks, isBlank, readString_chars, value]

/-! ## Whole values -/

mutual

theorem readValue_chars : ∀ (j : Json) (fuel : Nat) (rest : List Char), Ends rest →
    (Draft.ofJson j).Numbers Number.ReadsBack → 2 * j.chars.length ≤ fuel →
    readValue fuel (j.chars ++ rest) = (Draft.ofJson j, rest)
  | .null, fuel, rest, _, numbers, long => by
    obtain ⟨fuel, rfl⟩ := exists_fuel numbers long
    rfl
  | .bool b, fuel, rest, _, numbers, long => by
    obtain ⟨fuel, rfl⟩ := exists_fuel numbers long
    cases b <;> rfl
  | .int i, fuel, rest, ends, whole, long => by
    obtain ⟨fuel, rfl⟩ := exists_fuel whole long
    exact readValue_number (readNumber_append ends (readNumber_int whole)) fuel
  | .real v, fuel, rest, ends, reads, long => by
    obtain ⟨fuel, rfl⟩ := exists_fuel reads long
    exact readValue_number (readNumber_append ends reads) fuel
  | .string s, fuel, rest, _, numbers, long => by
    obtain ⟨fuel, rfl⟩ := exists_fuel numbers long
    simp [chars, stringChars, readValue, skipBlanks, isBlank, readString_chars, Draft.ofJson]
  | .array [], fuel, rest, _, numbers, long => by
    obtain ⟨fuel, rfl⟩ := exists_fuel numbers long
    rfl
  | .array (item :: items), fuel, rest, _, numbers, long => by
    simp only [Draft.ofJson, Draft.ofJsons, Draft.Numbers, Draft.NumbersItems] at numbers
    simp only [chars, List.length_cons, List.length_append] at long
    obtain ⟨fuel, rfl⟩ : ∃ f, fuel = f + 2 := ⟨fuel - 2, by omega⟩
    have first := readValue_chars item fuel (itemsChars items ++ rest)
      (ends_itemsChars items rest) numbers.1 (by omega)
    have all := readItems_chars items fuel _ _ rest numbers.2 (by omega) first
    rw [chars, List.cons_append, List.append_assoc,
      readValue_array ((starts_chars numbers.1).append _), all]
    rfl
  | .object [], fuel, rest, _, numbers, long => by
    obtain ⟨fuel, rfl⟩ := exists_fuel numbers long
    rfl
  | .object ((name, value) :: fields), fuel, rest, _, numbers, long => by
    simp only [Draft.ofJson, Draft.ofEntries, Draft.Numbers, Draft.NumbersFields] at numbers
    simp only [chars, List.length_cons, List.length_append] at long
    obtain ⟨fuel, rfl⟩ : ∃ f, fuel = f + 2 := ⟨fuel - 2, by omega⟩
    have first := readValue_chars value fuel (fieldsChars fields ++ rest)
      (ends_fieldsChars fields rest) numbers.1 (by omega)
    have all := readFields_chars fields fuel name _ _ rest numbers.2 (by omega) first
    rw [chars, List.cons_append, List.append_assoc, List.cons_append, List.append_assoc,
      readValue_object, all]
    rfl

theorem readItems_chars : ∀ (items : List Json) (fuel : Nat) (d : Draft) (cs rest : List Char),
    Draft.NumbersItems Number.ReadsBack (Draft.ofJsons items) →
    2 * (itemsChars items).length ≤ fuel →
    readValue fuel cs = (d, itemsChars items ++ rest) →
    readItems (fuel + 1) cs = (d :: Draft.ofJsons items, rest)
  | [], fuel, d, cs, rest, _, _, first => by
    simp [readItems, first, itemsChars, skipBlanks, isBlank, Draft.ofJsons]
  | item :: items, fuel, d, cs, rest, numbers, long, first => by
    simp only [Draft.ofJsons, Draft.NumbersItems] at numbers
    simp only [itemsChars, List.length_cons, List.length_append] at long
    obtain ⟨fuel, rfl⟩ : ∃ f, fuel = f + 1 := ⟨fuel - 1, by omega⟩
    have next := readValue_chars item fuel (itemsChars items ++ rest)
      (ends_itemsChars items rest) numbers.1 (by omega)
    have all := readItems_chars items fuel _ _ rest numbers.2 (by omega) next
    rw [readItems, first]
    simp [itemsChars, skipBlanks, isBlank, all, Draft.ofJsons]

theorem readFields_chars : ∀ (fields : List (String × Json)) (fuel : Nat) (name : String)
    (d : Draft) (cs rest : List Char),
    Draft.NumbersFields Number.ReadsBack (Draft.ofEntries fields) →
    2 * (fieldsChars fields).length ≤ fuel →
    readValue fuel cs = (d, fieldsChars fields ++ rest) →
    readFields (fuel + 1) (stringChars name ++ ':' :: cs) =
      ((some name, d) :: Draft.ofEntries fields, rest)
  | [], fuel, name, d, cs, rest, _, _, first => by
    exact readFields_last name first
  | (key, value) :: fields, fuel, name, d, cs, rest, numbers, long, first => by
    simp only [Draft.ofEntries, Draft.NumbersFields] at numbers
    simp only [fieldsChars, List.length_cons, List.length_append] at long
    obtain ⟨fuel, rfl⟩ : ∃ f, fuel = f + 1 := ⟨fuel - 1, by omega⟩
    have next := readValue_chars value fuel (fieldsChars fields ++ rest)
      (ends_fieldsChars fields rest) numbers.1 (by omega)
    have all := readFields_chars fields fuel key _ _ rest numbers.2 (by omega) next
    have text : fieldsChars ((key, value) :: fields) ++ rest =
        ',' :: (stringChars key ++ ':' :: (value.chars ++ (fieldsChars fields ++ rest))) := by
      simp [fieldsChars]
    rw [text] at first
    rw [readFields_next name first, all, Draft.ofEntries]

end

/-- The text of a value is read as the value. -/
theorem read_chars {j : Json} (numbers : (Draft.ofJson j).Numbers Number.ReadsBack) :
    read j.chars = (Draft.ofJson j, []) := by
  have read := readValue_chars j (2 * j.chars.length + 2) [] ends_nil numbers (by omega)
  rwa [List.append_nil] at read

/-! ## Nesting -/

mutual

/-- How many arrays and objects lie inside each other. -/
def depth : Json → Nat
  | array items => depthItems items + 1
  | object fields => depthFields fields + 1
  | null | bool _ | int _ | real _ | string _ => 0

def depthItems : List Json → Nat
  | [] => 0
  | item :: items => max (depth item) (depthItems items)

def depthFields : List (String × Json) → Nat
  | [] => 0
  | (_, value) :: fields => max (depth value) (depthFields fields)

end

theorem depth_le_of_mem {fields : List (String × Json)} {f : String × Json} (h : f ∈ fields) :
    f.2.depth ≤ depthFields fields := by
  induction fields with
  | nil => cases h
  | cons first fields ih =>
    rw [depthFields]
    rcases List.mem_cons.1 h with rfl | h
    · exact Nat.le_max_left _ _
    · exact (ih h).trans (Nat.le_max_right _ _)

mutual

theorem sound_ofJson (levels : Nat) : ∀ j : Json,
    (Draft.ofJson j).sound levels = true ↔ j.depth ≤ levels
  | .null | .bool _ | .int _ | .real _ | .string _ => by simp [Draft.ofJson, Draft.sound, depth]
  | .array items => by
    cases levels with
    | zero => simp [Draft.ofJson, Draft.sound, depth]
    | succ levels => simp [Draft.ofJson, Draft.sound, depth, sound_ofJsons levels items]
  | .object fields => by
    cases levels with
    | zero => simp [Draft.ofJson, Draft.sound, depth]
    | succ levels => simp [Draft.ofJson, Draft.sound, depth, sound_ofEntries levels fields]

theorem sound_ofJsons (levels : Nat) : ∀ items : List Json,
    Draft.soundItems levels (Draft.ofJsons items) = true ↔ depthItems items ≤ levels
  | [] => by simp [Draft.ofJsons, Draft.soundItems, depthItems]
  | item :: items => by
    simp [Draft.ofJsons, Draft.soundItems, depthItems, sound_ofJson levels item,
      sound_ofJsons levels items]

theorem sound_ofEntries (levels : Nat) : ∀ fields : List (String × Json),
    Draft.soundFields levels (Draft.ofEntries fields) = true ↔ depthFields fields ≤ levels
  | [] => by simp [Draft.ofEntries, Draft.soundFields, depthFields]
  | (_, value) :: fields => by
    simp [Draft.ofEntries, Draft.soundFields, depthFields, sound_ofJson levels value,
      sound_ofEntries levels fields]

end

namespace Draft

variable {P : Number → Prop} {levels : Nat}

theorem soundItems_iff {items : List Draft} :
    soundItems levels items = true ↔ ∀ d ∈ items, d.sound levels = true := by
  induction items with
  | nil => simp [soundItems]
  | cons item items ih => simp [soundItems, ih]

theorem soundFields_iff {fields : List (Option String × Draft)} :
    soundFields levels fields = true ↔
      ∀ f ∈ fields, f.1.isSome = true ∧ f.2.sound levels = true := by
  induction fields with
  | nil => simp [soundFields]
  | cons field fields ih => simp [soundFields, ih]

/-- The draft is a value that nests at most `levels` arrays and objects, and every number in it has
a property. -/
def Within (P : Number → Prop) (levels : Nat) (d : Draft) : Prop :=
  d.sound levels = true ∧ d.Numbers P

theorem within_array {items : List Draft} :
    (array items).Within P levels ↔ 0 < levels ∧ ∀ d ∈ items, d.Within P (levels - 1) := by
  simp only [Within, sound, Numbers, soundItems_iff, numbersItems_iff, Bool.and_eq_true, bne_iff_ne,
    ne_eq, Nat.pos_iff_ne_zero]
  constructor
  · rintro ⟨⟨pos, sound⟩, numbers⟩
    exact ⟨pos, fun d hd => ⟨sound d hd, numbers d hd⟩⟩
  · rintro ⟨pos, within⟩
    exact ⟨⟨pos, fun d hd => (within d hd).1⟩, fun d hd => (within d hd).2⟩

theorem within_object {fields : List (Option String × Draft)} :
    (object fields).Within P levels ↔
      0 < levels ∧ ∀ f ∈ fields, f.1.isSome = true ∧ f.2.Within P (levels - 1) := by
  simp only [Within, sound, Numbers, soundFields_iff, numbersFields_iff, Bool.and_eq_true,
    bne_iff_ne, ne_eq, Nat.pos_iff_ne_zero]
  constructor
  · rintro ⟨⟨pos, sound⟩, numbers⟩
    exact ⟨pos, fun f hf => ⟨(sound f hf).1, (sound f hf).2, numbers f hf⟩⟩
  · rintro ⟨pos, within⟩
    exact ⟨⟨pos, fun f hf => ⟨(within f hf).1, (within f hf).2.1⟩⟩, fun f hf => (within f hf).2.2⟩

theorem within_string (s : String) : (ofJson (.string s)).Within P levels := by
  simp [Within, ofJson, sound, Numbers]

theorem within_items {items : List Json} :
    (ofJson (.array items)).Within P levels ↔
      0 < levels ∧ ∀ item ∈ items, (ofJson item).Within P (levels - 1) := by
  rw [ofJson, within_array, ofJsons_eq_map, List.forall_mem_map]

theorem within_fields {fields : List (String × Json)} :
    (ofJson (.object fields)).Within P levels ↔
      0 < levels ∧ ∀ f ∈ fields, (ofJson f.2).Within P (levels - 1) := by
  rw [ofJson, within_object, ofEntries_eq_map, List.forall_mem_map]
  simp only [Option.isSome_some, true_and]

end Draft

/-! ## Numbers of any text -/

section
variable {P : Number → Prop} (each : ∀ numeral n, Number.ofNumeral numeral = some n → P n)
include each

theorem numbers_readNumber (cs : List Char) : (readNumber cs).1.Numbers P := by
  unfold readNumber
  split
  · next numeral rest _ =>
    cases hn : Number.ofNumeral numeral with
    | none => simp [Draft.Numbers]
    | some n => simpa [Draft.Numbers] using each numeral n hn
  · simp [Draft.Numbers]

theorem numbers_readSteps (fuel : Nat) : (∀ cs, (readValue fuel cs).1.Numbers P) ∧
    (∀ cs, Draft.NumbersItems P (readItems fuel cs).1) ∧
    ∀ cs, Draft.NumbersFields P (readFields fuel cs).1 := by
  induction fuel with
  | zero => simp [readValue, readItems, readFields, Draft.Numbers, Draft.NumbersItems,
      Draft.NumbersFields]
  | succ fuel ih =>
    obtain ⟨values, items, fields⟩ := ih
    refine ⟨fun cs => ?_, fun cs => ?_, fun cs => ?_⟩
    · unfold readValue
      split
      all_goals try split
      all_goals simp [Draft.Numbers, Draft.NumbersItems, Draft.NumbersFields, items, fields,
        numbers_readNumber each]
    · simp only [readItems]
      split
      all_goals simp [Draft.Numbers, Draft.NumbersItems, items, values]
    · simp only [readFields]
      split
      · split
        · simp [Draft.Numbers, Draft.NumbersFields]
        · split
          · split
            all_goals simp [Draft.Numbers, Draft.NumbersFields, fields, values]
          · simp [Draft.Numbers, Draft.NumbersFields]
      · simp [Draft.Numbers, Draft.NumbersFields]

/-- Every number in a text comes from a numeral. -/
theorem numbers_read (cs : List Char) : (read cs).1.Numbers P := (numbers_readSteps each _).1 cs

end

/-- An integer of 64 bits, with a sign or without one, or a finite real. -/
def Number.Plain : Number → Prop
  | int i => Whole i
  | real v => v.isFinite = true

theorem Number.plain_ofNumeral {numeral : Numeral} {n : Number} (h : ofNumeral numeral = some n) :
    n.Plain := by
  simp only [ofNumeral] at h
  split at h
  · simp only [realOf] at h
    obtain ⟨v, scaled, rfl⟩ := Option.map_eq_some_iff.1 h
    have finite := isFinite_scale scaled
    simp only [Plain]
    split
    · exact Double.isFinite_neg finite
    · exact finite
  next small =>
  have fits : digitsValue numeral.whole < pow2 64 := by
    simp only [not_or, Nat.not_le] at small
    exact small.2.2
  split at h
  · cases h
    simp only [Plain, Whole]
    omega
  split at h
  · next kept =>
    cases h
    simp only [Plain, Whole]
    omega
  · cases h
    exact Double.isFinite_neg (Double.isFinite_ofInt (by rw [Int.natAbs_natCast]; exact fits.le))

/-- A text only has numbers of 64 bits and finite reals. -/
theorem plain_read (cs : List Char) : (read cs).1.Numbers Number.Plain :=
  numbers_read (fun _ _ => Number.plain_ofNumeral) cs

end Crosstab.Json
