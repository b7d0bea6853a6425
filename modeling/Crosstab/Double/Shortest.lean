import Crosstab.Double.Basic

/-!
# Shortest decimals

The fewest decimal digits that read back as a given double. The reals that round to
`mantissa * 2 ^ scale` form an interval, whose ends belong to it exactly if the mantissa is even.
For one digit, two digits, and so on, the two neighbours of the value on that decimal grid are
tried; the first grid with a neighbour in the interval gives the digits, and the nearer neighbour
wins.
-/

namespace Crosstab

/-- The number `digits * 10 ^ exponent`. -/
structure Decimal where
  digits : Nat
  exponent : Int
  deriving DecidableEq

/-- The way an exact tie between two decimals goes. -/
inductive Tie
  /-- To the greater one. -/
  | up
  /-- To the one whose last digit is even. -/
  | even
  deriving DecidableEq

/-- The number of decimal digits of a natural number; zero has none. -/
def decimalLength (n : Nat) : Nat :=
  if _h : n = 0 then 0 else decimalLength (n / 10) + 1
termination_by n
decreasing_by omega

/-- The number of digits before the decimal point of `num / den`: the least `k` with
`num / den < 10 ^ k`. -/
def decimalPlace (num den : Nat) : Int :=
  if den ≤ num then decimalLength (num / den)
  else 1 - (decimalLength ((den - 1) / num) : Int)

/-- Zeros at the end of the digits become part of the power of ten. -/
def dropZeros (digits : Nat) (exponent : Int) : Decimal :=
  if _h : digits ≠ 0 ∧ digits % 10 = 0 then dropZeros (digits / 10) (exponent + 1)
  else ⟨digits, exponent⟩
termination_by digits
decreasing_by omega

namespace Double

/-- The reals that round to a double, as multiples `low / den` and `high / den`, with the value
itself at `mid / den`. -/
structure Interval where
  low : Nat
  mid : Nat
  high : Nat
  den : Nat
  /-- The ends belong to it. -/
  closed : Bool

/-- The reals that round to `mantissa * 2 ^ scale`. Below a power of two the doubles lie twice as
close. -/
def interval (mantissa : Nat) (scale : Int) : Interval :=
  let below := if mantissa = pow2 52 ∧ -1074 < scale then 1 else 2
  let up := pow2 (scale - 2).toNat
  ⟨(4 * mantissa - below) * up, 4 * mantissa * up, (4 * mantissa + 2) * up, pow2 (2 - scale).toNat,
    mantissa % 2 = 0⟩

def Interval.holds (r : Interval) (digits : Nat) (exponent : Int) : Bool :=
  let x := digits * pow10 exponent.toNat * r.den
  let low := r.low * pow10 (-exponent).toNat
  let high := r.high * pow10 (-exponent).toNat
  if r.closed then low ≤ x && x ≤ high else low < x && x < high

/-- The neighbour of the middle on the grid of `10 ^ exponent` that lies in the interval; of two the
nearer. -/
def Interval.neighbour? (r : Interval) (tie : Tie) (exponent : Int) : Option Decimal :=
  let num := r.mid * pow10 (-exponent).toNat
  let den := r.den * pow10 exponent.toNat
  let below := num / den
  let rest := num % den
  let up := den < 2 * rest || (den == 2 * rest && (tie == .up || below % 2 == 1))
  match r.holds below exponent, r.holds (below + 1) exponent with
  | false, false => none
  | true, false => some (dropZeros below exponent)
  | false, true => some (dropZeros (below + 1) exponent)
  | true, true => some (dropZeros (if up then below + 1 else below) exponent)

/-- The fewest digits that read back as `mantissa * 2 ^ scale`, and of those the nearest. Seventeen
digits always suffice. -/
def shortest (tie : Tie) (mantissa : Nat) (scale : Int) : Decimal :=
  let r := interval mantissa scale
  let place := decimalPlace r.mid r.den
  ((List.range' 1 17).findSome? fun (n : Nat) => r.neighbour? tie (place - n)).getD ⟨0, 0⟩

end Double

end Crosstab
