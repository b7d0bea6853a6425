import Crosstab.Double.Reading

/-!
# Numbers in JSON

How the digits of a JSON number become an integer or a real. Digits are collected as long as they
fit in 64 bits. A number without fraction and exponent that fits is an integer; any other is the
collected digits, rounded to a double, times a power of ten, rounded again.
-/

namespace Crosstab.Json

/-- A number as it is spelled: its digits before and after the point, and its exponent. -/
structure Numeral where
  negative : Bool
  whole : List Char
  fraction : Option (List Char)
  exponent : Option Int

/-- What a number is read as. -/
inductive Number
  | int (value : Int)
  | real (value : Double)

namespace Number

/-- Digits taken into a number of 64 bits as long as they fit, and those that no longer did. -/
def collect (significand : Nat) : List Char → Nat × List Char
  | [] => (significand, [])
  | c :: rest =>
    let next := 10 * significand + (c.toNat - '0'.toNat)
    if next < pow2 64 then collect next rest else (significand, c :: rest)

/-- A double times a power of ten; nothing if the product is out of range. -/
def scaleUp (mantissa : Nat) (scale : Int) (exponent : Nat) : Option Double :=
  if mantissa = 0 then some (Double.zero false)
  else if 308 < exponent then none
  else match Double.ofInt (pow10 exponent) with
    | .finite _ m e _ =>
      let e := scale + e
      match Double.ofRatio false (mantissa * m * pow2 e.toNat) (pow2 (-e).toNat) with
      | .infinity _ => none
      | v => some v
    | _ => none

def divide (v : Double) (exponent : Nat) : Double :=
  match v, Double.ofInt (pow10 exponent) with
  | .finite _ n f _, .finite _ m e _ =>
    let e := f - e
    Double.ofRatio false (n * pow2 e.toNat) (m * pow2 (-e).toNat)
  | v, _ => v

/-- A double divided by a power of ten, in steps of at most 308. -/
def scaleDown (v : Double) (exponent : Nat) : Double :=
  if _h : exponent ≤ 308 then divide v exponent
  else if v.numEq (Double.zero false) then v
  else scaleDown (divide v 308) (exponent - 308)
termination_by exponent
decreasing_by omega

/-- A natural number, rounded to a double, times a power of ten. -/
def scale (significand : Nat) (exponent : Int) : Option Double :=
  match Double.ofInt significand with
  | .finite negative m e h =>
    if 0 ≤ exponent then scaleUp m e exponent.toNat
    else some (scaleDown (.finite negative m e h) (-exponent).toNat)
  | _ => none

/-- A real number; the digits that no longer fit count only if they stand before the point. -/
def realOf (n : Numeral) : Option Number :=
  let (significand, dropped) := collect 0 n.whole
  let fraction := n.fraction.getD []
  let (significand, ignored) := collect significand fraction
  let places := fraction.length - ignored.length
  let exponent : Int := dropped.length - places + n.exponent.getD 0
  (scale significand exponent).map fun v => real (if n.negative then v.neg else v)

/-- The value of a number, if it is in range. Minus zero is a real. -/
def ofNumeral (n : Numeral) : Option Number :=
  let value := digitsValue n.whole
  if n.fraction.isSome ∨ n.exponent.isSome ∨ pow2 64 ≤ value then realOf n
  else if !n.negative then some (int value)
  else if value ≠ 0 ∧ value ≤ pow2 63 then some (int (-value))
  else some (real (Double.ofInt value).neg)

end Number

end Crosstab.Json
