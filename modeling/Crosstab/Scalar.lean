import Crosstab.DataType
import Crosstab.Double.Layout

namespace Crosstab

/-- The value of a cell. -/
inductive Scalar
  | null
  | bool (value : Bool)
  | int (value : Int64)
  | real (value : Double)
  | text (value : String)
  deriving DecidableEq

namespace Scalar

def isNull : Scalar → Bool
  | null => true
  | _ => false

/-- The type of a value; null has none. -/
def type? : Scalar → Option DataType
  | null => none
  | bool _ => some .boolean
  | int _ => some .integer
  | real _ => some .real
  | text _ => some .text

/-- The number that a numeric value is, as a double. -/
def toDouble? : Scalar → Option Double
  | int i => some (Double.ofInt i.toInt)
  | real v => some v
  | _ => none

def text? : Scalar → Option String
  | text s => some s
  | _ => none

/-- Equality of values: reals compare as numbers, all else as written. -/
def equals : Scalar → Scalar → Bool
  | real a, real b => a.numEq b
  | a, b => decide (a = b)

/-- A real as a person sees it: a whole number below `10 ^ 15` with one fraction digit, any other
value without an exponent and with no more digits than it needs. -/
def displayReal (v : Double) : String :=
  match v.toInt? with
  | some i => if i.natAbs < pow10 15 then v.fixed else v.plain
  | none => v.plain

/-- A value as a person sees it. -/
def display : Scalar → String
  | null => "NULL"
  | bool b => if b then "true" else "false"
  | int i => toString i.toInt
  | real v => displayReal v
  | text s => s

end Scalar

end Crosstab
