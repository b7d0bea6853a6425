import Crosstab.Json.Number
import Crosstab.Json.Value

/-!
# Reading JSON

A draft is a JSON text as far as it could be read. Where the text breaks off or goes wrong the draft
has a fault, after everything that came before it; so whoever takes a draft apart in the order of
the text meets the first error of the text first. Two further errors are kept apart, because they
only matter where the value is used: a number out of range, and a string with half a surrogate pair.
-/

namespace Crosstab.Json

/-- A JSON text as far as it could be read. -/
inductive Draft
  | null
  | bool (value : Bool)
  /-- A number; `none` if it is out of range. -/
  | number (value : Option Number)
  /-- A string; `none` if a surrogate in it has no partner. -/
  | string (value : Option String)
  | array (items : List Draft)
  | object (fields : List (Option String × Draft))
  /-- Here the text stops to be JSON. -/
  | fault

namespace Draft

mutual

/-- The text of the draft is JSON, whatever its numbers and strings hold. -/
def skippable : Draft → Bool
  | fault => false
  | array items => skippableItems items
  | object fields => skippableFields fields
  | null | bool _ | number _ | string _ => true

def skippableItems : List Draft → Bool
  | [] => true
  | item :: items => skippable item && skippableItems items

def skippableFields : List (Option String × Draft) → Bool
  | [] => true
  | (_, value) :: fields => skippable value && skippableFields fields

end

mutual

/-- The draft is a value that nests at most `levels` arrays and objects. -/
def sound (levels : Nat) : Draft → Bool
  | null | bool _ => true
  | number value => value.isSome
  | string value => value.isSome
  | array items => levels != 0 && soundItems (levels - 1) items
  | object fields => levels != 0 && soundFields (levels - 1) fields
  | fault => false

def soundItems (levels : Nat) : List Draft → Bool
  | [] => true
  | item :: items => sound levels item && soundItems levels items

def soundFields (levels : Nat) : List (Option String × Draft) → Bool
  | [] => true
  | (name, value) :: fields => name.isSome && sound levels value && soundFields levels fields

end

mutual

def value? : Draft → Option Json
  | null => some .null
  | bool b => some (.bool b)
  | number (some (.int i)) => some (.int i)
  | number (some (.real v)) => some (.real v)
  | string (some s) => some (.string s)
  | array items => (items? items).map .array
  | object fields => (fields? fields).map .object
  | number none | string none | fault => none

def items? : List Draft → Option (List Json)
  | [] => some []
  | item :: items => do
    let first ← value? item
    let rest ← items? items
    return first :: rest

def fields? : List (Option String × Draft) → Option (List (String × Json))
  | [] => some []
  | (name, value) :: fields => do
    let name ← name
    let first ← value? value
    let rest ← fields? fields
    return (name, first) :: rest

end

end Draft

/-- Blanks between the parts of a text. -/
def isBlank (c : Char) : Bool := c == ' ' || c == '\n' || c == '\t' || c == '\r'

def skipBlanks (cs : List Char) : List Char := cs.dropWhile isBlank

/-- A part of a string: a character, or the code unit that an escape gives by number. -/
inductive Piece
  | char (c : Char)
  | unit (code : Nat)

def hexValue? (c : Char) : Option Nat :=
  let n := c.toNat
  if 48 ≤ n ∧ n ≤ 57 then some (n - 48)
  else if 97 ≤ n ∧ n ≤ 102 then some (n - 87)
  else if 65 ≤ n ∧ n ≤ 70 then some (n - 55)
  else none

def hexUnit? (a b c d : Char) : Option Nat := do
  let a ← hexValue? a
  let b ← hexValue? b
  let c ← hexValue? c
  let d ← hexValue? d
  return ((a * 16 + b) * 16 + c) * 16 + d

/-- What a letter after a backslash stands for. -/
def escaped? : Char → Option Char
  | '"' => some '"'
  | '\\' => some '\\'
  | '/' => some '/'
  | 'b' => some '\x08'
  | 'f' => some '\x0c'
  | 'n' => some '\n'
  | 'r' => some '\r'
  | 't' => some '\t'
  | _ => none

/-- The parts of a string up to its closing quote, and what follows that; nothing if the string does
not end, or holds a control character or an unknown escape. -/
def readPieces : List Char → Option (List Piece × List Char)
  | [] => none
  | '"' :: rest => some ([], rest)
  | '\\' :: 'u' :: a :: b :: c :: d :: rest => do
    let code ← hexUnit? a b c d
    let (pieces, rest) ← readPieces rest
    return (.unit code :: pieces, rest)
  | '\\' :: c :: rest => do
    let c ← escaped? c
    let (pieces, rest) ← readPieces rest
    return (.char c :: pieces, rest)
  | c :: rest =>
    if c = '\\' ∨ c.toNat < 0x20 then none
    else do
      let (pieces, rest) ← readPieces rest
      return (.char c :: pieces, rest)

def isHighSurrogate (code : Nat) : Bool := 0xD800 ≤ code && code < 0xDC00

def isLowSurrogate (code : Nat) : Bool := 0xDC00 ≤ code && code < 0xE000

/-- The characters of the parts of a string; nothing if half a surrogate pair stands alone. -/
def pieceChars : List Piece → Option (List Char)
  | [] => some []
  | .char c :: rest => (pieceChars rest).map (c :: ·)
  | .unit high :: .unit low :: rest =>
    if isHighSurrogate high then
      if isLowSurrogate low then
        (pieceChars rest).map
          (Char.ofNat (0x10000 + (high - 0xD800) * 0x400 + (low - 0xDC00)) :: ·)
      else none
    else if isLowSurrogate high then none
    else (pieceChars (.unit low :: rest)).map (Char.ofNat high :: ·)
  | .unit code :: rest =>
    if isHighSurrogate code || isLowSurrogate code then none
    else (pieceChars rest).map (Char.ofNat code :: ·)

/-- The string after its opening quote, and what follows it. -/
def readString (cs : List Char) : Option (Option String × List Char) :=
  (readPieces cs).map fun (pieces, rest) => ((pieceChars pieces).map String.ofList, rest)

/-- A point and digits, if a point comes next. -/
def readFraction : List Char → Option (Option (List Char) × List Char)
  | '.' :: rest =>
    let (digits, rest) := spanDigits rest
    if digits = [] then none else some (some digits, rest)
  | rest => some (none, rest)

/-- The letter `e` and a whole number, if the letter comes next. -/
def readExponent (cs : List Char) : Option (Option Int × List Char) :=
  match cs with
  | c :: rest =>
    if c = 'e' ∨ c = 'E' then
      let (negative, rest) := splitSign rest
      let (digits, rest) := spanDigits rest
      let value : Int := digitsValue digits
      if digits = [] then none else some (some (if negative then -value else value), rest)
    else some (none, cs)
  | [] => some (none, [])

/-- The digits before the point: a zero stands alone. -/
def readWhole (cs : List Char) : Option (List Char × List Char) :=
  let (digits, rest) := spanDigits cs
  if digits = [] ∨ (digits.head? = some '0' ∧ digits ≠ ['0']) then none else some (digits, rest)

/-- A number, and what follows it. -/
def readNumeral (cs : List Char) : Option (Numeral × List Char) := do
  let (negative, cs) := match cs with
    | '-' :: rest => (true, rest)
    | cs => (false, cs)
  let (whole, cs) ← readWhole cs
  let (fraction, cs) ← readFraction cs
  let (exponent, cs) ← readExponent cs
  return (⟨negative, whole, fraction, exponent⟩, cs)

def readNumber (cs : List Char) : Draft × List Char :=
  match readNumeral cs with
  | some (numeral, rest) => (.number (Number.ofNumeral numeral), rest)
  | none => (.fault, [])

mutual

/-- One value, and what follows it. The text after a fault is not looked at. -/
def readValue : (fuel : Nat) → List Char → Draft × List Char
  | 0, _ => (.fault, [])
  | fuel + 1, cs =>
    match skipBlanks cs with
    | 'n' :: 'u' :: 'l' :: 'l' :: rest => (.null, rest)
    | 't' :: 'r' :: 'u' :: 'e' :: rest => (.bool true, rest)
    | 'f' :: 'a' :: 'l' :: 's' :: 'e' :: rest => (.bool false, rest)
    | '"' :: rest =>
      match readString rest with
      | some (s, rest) => (.string s, rest)
      | none => (.fault, [])
    | '[' :: rest =>
      match skipBlanks rest with
      | ']' :: rest => (.array [], rest)
      | rest =>
        let (items, rest) := readItems fuel rest
        (.array items, rest)
    | '{' :: rest =>
      match skipBlanks rest with
      | '}' :: rest => (.object [], rest)
      | rest =>
        let (fields, rest) := readFields fuel rest
        (.object fields, rest)
    | cs => readNumber cs

/-- The items of an array up to its end, and what follows it. -/
def readItems : (fuel : Nat) → List Char → List Draft × List Char
  | 0, _ => ([.fault], [])
  | fuel + 1, cs =>
    let (item, rest) := readValue fuel cs
    match skipBlanks rest with
    | ',' :: rest =>
      let (items, rest) := readItems fuel rest
      (item :: items, rest)
    | ']' :: rest => ([item], rest)
    | _ => ([item, .fault], [])

/-- The fields of an object up to its end, and what follows it. -/
def readFields : (fuel : Nat) → List Char → List (Option String × Draft) × List Char
  | 0, _ => ([(none, .fault)], [])
  | fuel + 1, cs =>
    match skipBlanks cs with
    | '"' :: rest =>
      match readString rest with
      | none => ([(none, .fault)], [])
      | some (name, rest) =>
        match skipBlanks rest with
        | ':' :: rest =>
          let (value, rest) := readValue fuel rest
          match skipBlanks rest with
          | ',' :: rest =>
            let (fields, rest) := readFields fuel rest
            ((name, value) :: fields, rest)
          | '}' :: rest => ([(name, value)], rest)
          | _ => ([(name, value), (none, .fault)], [])
        | _ => ([(name, .fault)], [])
    | _ => ([(none, .fault)], [])

end

/-- The value at the front of a text, and what follows it. Every step of the reading takes a
character, so there are never more steps than characters. -/
def read (cs : List Char) : Draft × List Char := readValue (2 * cs.length + 2) cs

/-- The value that a text is, if it is one. -/
def parse? (s : String) : Option Json :=
  let (draft, rest) := read s.toList
  if skipBlanks rest = [] then draft.value? else none

end Crosstab.Json
