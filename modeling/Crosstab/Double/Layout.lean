import Crosstab.Double.Shortest

/-!
# Written forms of doubles

A double is written with its shortest digits. Three forms differ in where positional writing ends
and in what they force:

* `Double.literal`, the form of SQL and of answers: a fraction digit always, an exponent outside of
  `1e-4 ≤ |v| < 1e16`;
* `Double.plain`: positional at any size, and no fraction digit unless there is one;
* `Double.jsonText`: as the literal form, but with an exponent only below `1e-5`, and the exponent's
  sign always written; a value that is not finite has no such form.
-/

namespace Crosstab

/-- How digits are laid out. -/
structure RealLayout where
  /-- The least decimal exponent that is written positionally, if there is one. -/
  least : Option Int
  /-- The first decimal exponent that is no longer written positionally, if there is one. -/
  limit : Option Int
  /-- A whole number gets one fraction digit. -/
  pointZero : Bool
  /-- An exponent that is not negative gets a plus sign. -/
  plusSign : Bool
  /-- The way a tie between two shortest decimals goes. -/
  tie : Tie

namespace RealLayout

/-- Whether a number whose first digit counts `10 ^ e` is written without an exponent. -/
def positional (layout : RealLayout) (e : Int) : Bool :=
  (match layout.least with | none => true | some least => decide (least ≤ e)) &&
    (match layout.limit with | none => true | some limit => decide (e < limit))

/-- Digits with the point after the first `place` of them, and zeros where there are none. -/
def placed (pointZero : Bool) (digits : List Char) (place : Int) : List Char :=
  if place ≤ 0 then '0' :: '.' :: (List.replicate (-place).toNat '0' ++ digits)
  else if digits.length ≤ place.toNat then
    digits ++ List.replicate (place.toNat - digits.length) '0' ++
      (if pointZero then ['.', '0'] else [])
  else digits.take place.toNat ++ '.' :: digits.drop place.toNat

def scientific (plusSign : Bool) (digits : List Char) (e : Int) : List Char :=
  let head := match digits with
    | [] => []
    | [d] => [d]
    | d :: rest => d :: '.' :: rest
  head ++ 'e' :: ((if plusSign && decide (0 ≤ e) then ['+'] else []) ++ (toString e).toList)

def decimal (layout : RealLayout) (d : Decimal) : List Char :=
  if d.digits = 0 then if layout.pointZero then ['0', '.', '0'] else ['0']
  else
    let digits := Nat.toDigits 10 d.digits
    let place := d.exponent + digits.length
    if layout.positional (place - 1) then placed layout.pointZero digits place
    else scientific layout.plusSign digits (place - 1)

/-- A finite value, its sign first; zero has a sign too. -/
def finite (layout : RealLayout) (negative : Bool) (mantissa : Nat) (scale : Int) : String :=
  let d := if mantissa = 0 then ⟨0, 0⟩ else Double.shortest layout.tie mantissa scale
  String.ofList ((if negative then ['-'] else []) ++ layout.decimal d)

/-- Any double; the values without digits by name. -/
def write (layout : RealLayout) : Double → String
  | .nan => "NaN"
  | .infinity negative => if negative then "-inf" else "inf"
  | .finite negative mantissa scale _ => layout.finite negative mantissa scale

end RealLayout

namespace Double

/-- The form that reads back as a real number in SQL. -/
def literal : Double → String := RealLayout.write ⟨some (-4), some 16, true, false, .up⟩

/-- The form without any exponent. -/
def plain : Double → String := RealLayout.write ⟨none, none, false, false, .up⟩

/-- The form with at least one fraction digit and without any exponent. -/
def fixed : Double → String := RealLayout.write ⟨none, none, true, false, .up⟩

/-- The form in JSON of a finite value. -/
def jsonText? : Double → Option String
  | .finite negative mantissa scale _ =>
    some (RealLayout.finite ⟨some (-5), some 16, true, true, .even⟩ negative mantissa scale)
  | _ => none

end Double

end Crosstab
