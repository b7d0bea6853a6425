import Crosstab.Double.Basic

/-!
# Reading numbers

Numbers in texts: whole numbers with an optional sign, and decimals.
-/

namespace Crosstab

def digitsValue (digits : List Char) : Nat :=
  digits.foldl (fun n c => 10 * n + (c.toNat - '0'.toNat)) 0

/-- The digits at the front of a text, and what follows them. -/
def spanDigits (cs : List Char) : List Char × List Char :=
  (cs.takeWhile Char.isDigit, cs.dropWhile Char.isDigit)

/-- A sign at the front, if there is one; `true` is minus. -/
def splitSign : List Char → Bool × List Char
  | '-' :: rest => (true, rest)
  | '+' :: rest => (false, rest)
  | cs => (false, cs)

def readDigits? (cs : List Char) : Option Nat :=
  if cs ≠ [] ∧ cs.all Char.isDigit then some (digitsValue cs) else none

def readInt? (cs : List Char) : Option Int :=
  let (negative, digits) := splitSign cs
  (readDigits? digits).map fun n => if negative then -(n : Int) else n

/-- The integer that a text denotes, if it has 64 bits. -/
def readInt64? (cs : List Char) : Option Int64 := do
  let i ← readInt? cs
  if FitsInt64 i then some (Int64.ofInt i) else none

/-- The position that a text denotes: digits after an optional plus sign, below `2 ^ 64`. -/
def readIndex? (cs : List Char) : Option Nat := do
  let n ← readDigits? (match cs with | '+' :: rest => rest | cs => cs)
  if n < pow2 64 then some n else none

namespace Double

/-- The double nearest to `± digits * 10 ^ exponent`. A number far beyond the format's range is not
computed. -/
def ofDecimal (negative : Bool) (digits : Nat) (exponent : Int) : Double :=
  if digits = 0 then zero negative
  else
    let length := (Nat.toDigits 10 digits).length
    if 400 < exponent + length then .infinity negative
    else if exponent + length < -400 then zero negative
    else ofRatio negative (digits * pow10 exponent.toNat) (pow10 (-exponent).toNat)

/-- An exponent: nothing, or a letter `e` and a whole number. -/
def readExponent? : List Char → Option Int
  | [] => some 0
  | c :: rest => if c = 'e' ∨ c = 'E' then readInt? rest else none

/-- An unsigned decimal: digits before or after a point, and an exponent. -/
def readDecimal? (negative : Bool) (cs : List Char) : Option Double :=
  let (whole, rest) := spanDigits cs
  let (fraction, rest) := match rest with
    | '.' :: rest => spanDigits rest
    | rest => ([], rest)
  if whole = [] ∧ fraction = [] then none
  else (readExponent? rest).map fun e =>
    ofDecimal negative (digitsValue (whole ++ fraction)) (e - fraction.length)

/-- The double that a text denotes: `inf`, `infinity` or `nan` in any case, or a decimal, after an
optional sign. -/
def read? (cs : List Char) : Option Double :=
  let (negative, rest) := splitSign cs
  let word := String.ofList (rest.map Char.toLower)
  if word = "nan" then some .nan
  else if word = "inf" ∨ word = "infinity" then some (.infinity negative)
  else readDecimal? negative rest

end Double

end Crosstab
