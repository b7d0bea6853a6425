/-!
# Binary64 numbers

A `Double` is not a number, an infinity, or a finite value `± mantissa * 2 ^ scale` in the one form
that the format stores. Arithmetic is exact on natural numbers and rounds once at the end.
-/

namespace Crosstab

def pow2 (k : Nat) : Nat := Nat.pow 2 k

def pow10 (k : Nat) : Nat := Nat.pow 10 k

namespace Double

/-- The form a finite value is stored in: at most 53 bits, and fewer only at the least scale. -/
def Canonical (mantissa : Nat) (scale : Int) : Prop :=
  mantissa < pow2 53 ∧ -1074 ≤ scale ∧ scale ≤ 971 ∧ (pow2 52 ≤ mantissa ∨ scale = -1074)

instance (mantissa : Nat) (scale : Int) : Decidable (Canonical mantissa scale) :=
  inferInstanceAs (Decidable (_ ∧ _ ∧ _ ∧ _))

end Double

/-- A number of the IEEE 754 binary64 format; the payload of a NaN is not kept. -/
inductive Double
  | nan
  | infinity (negative : Bool)
  | finite (negative : Bool) (mantissa : Nat) (scale : Int)
      (canonical : Double.Canonical mantissa scale)
  deriving DecidableEq

namespace Double

/-- The value `± mantissa * 2 ^ scale`, or the infinity of that sign where the format ends. -/
def pack (negative : Bool) (mantissa : Nat) (scale : Int) : Double :=
  if h : Canonical mantissa scale then .finite negative mantissa scale h else .infinity negative

def zero (negative : Bool) : Double := .finite negative 0 (-1074) (by decide)

/-- The natural number nearest to a quotient, an exact tie to the even one. -/
def roundHalfEven (num den : Nat) : Nat :=
  let rest := num % den
  if den < 2 * rest ∨ (den = 2 * rest ∧ num / den % 2 = 1) then num / den + 1 else num / den

/-- The greatest `k` with `2 ^ k ≤ num / den`. -/
def log2Ratio (num den : Nat) : Int :=
  let k : Int := num.log2 - den.log2
  if den * pow2 k.toNat ≤ num * pow2 (-k).toNat then k else k - 1

/-- The double nearest to `± num / den`; an exact tie goes to the even mantissa. -/
def ofRatio (negative : Bool) (num den : Nat) : Double :=
  if num = 0 then zero negative
  else
    let scale := max (log2Ratio num den - 52) (-1074)
    let mantissa := roundHalfEven (num * pow2 (-scale).toNat) (den * pow2 scale.toNat)
    if mantissa = pow2 53 then pack negative (pow2 52) (scale + 1)
    else pack negative mantissa scale

def ofInt (i : Int) : Double := ofRatio (decide (i < 0)) i.natAbs 1

def neg : Double → Double
  | nan => nan
  | infinity negative => infinity !negative
  | finite negative mantissa scale h => finite (!negative) mantissa scale h

def isFinite : Double → Bool
  | finite .. => true
  | _ => false

def isNaN : Double → Bool
  | nan => true
  | _ => false

/-- Equality of numbers: not a number equals nothing, and the two zeros are equal. -/
def numEq : Double → Double → Bool
  | infinity a, infinity b => a == b
  | finite a m e _, finite b n f _ => (m == 0 && n == 0) || (a == b && m == n && e == f)
  | _, _ => false

/-- The whole part of `mantissa * 2 ^ scale`. -/
def wholePart (mantissa : Nat) (scale : Int) : Nat :=
  mantissa * pow2 scale.toNat / pow2 (-scale).toNat

/-- The integer that a finite value is, if it has no fraction. -/
def toInt? : Double → Option Int
  | finite negative mantissa scale _ =>
    if mantissa % pow2 (-scale).toNat = 0 then
      let whole := wholePart mantissa scale
      some (if negative then -(whole : Int) else whole)
    else none
  | _ => none

end Double

def FitsInt64 (i : Int) : Prop := Int64.minValue.toInt ≤ i ∧ i ≤ Int64.maxValue.toInt

instance (i : Int) : Decidable (FitsInt64 i) := inferInstanceAs (Decidable (_ ∧ _))

/-- The 64-bit integer nearest to an integer. -/
def clampInt64 (i : Int) : Int64 :=
  Int64.ofInt (max Int64.minValue.toInt (min i Int64.maxValue.toInt))

end Crosstab
