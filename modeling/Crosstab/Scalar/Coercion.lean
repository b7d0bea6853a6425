import Crosstab.Double.Reading
import Crosstab.Error
import Crosstab.Text.Blank

namespace Crosstab

namespace Scalar

/-- The truth value that a trimmed text means. -/
def readBool? (cs : List Char) : Option Bool :=
  match String.ofList (cs.map Char.toLower) with
  | "true" | "t" | "1" => some true
  | "false" | "f" | "0" => some false
  | _ => none

/-- The value that a text is in a column of the type; blank ends do not count. -/
def coerceText (s : String) : DataType → Except TypeError Scalar
  | .text => .ok (text s)
  | .integer =>
    match readInt64? (Text.trim s.toList) with
    | some i => .ok (int i)
    | none => .error (.notInteger s)
  | .real =>
    match Double.read? (Text.trim s.toList) with
    | some v => .ok (real v)
    | none => .error (.notReal s)
  | .boolean =>
    match readBool? (Text.trim s.toList) with
    | some b => .ok (bool b)
    | none => .error (.notBoolean s)

/-- The value that a real is in a column of the type. A whole real beyond the range of integers
becomes the nearest one. -/
def coerceReal (v : Double) : DataType → Except TypeError Scalar
  | .real => .ok (real v)
  | .text => .ok (text (displayReal v))
  | .integer =>
    match v.toInt? with
    | some i => .ok (int (clampInt64 i))
    | none => .error (.noConversion (real v) .integer)
  | .boolean => .error (.noConversion (real v) .boolean)

/-- The value taken to a type. -/
def coerce (value : Scalar) (target : DataType) : Except TypeError Scalar :=
  match value, target with
  | null, _ => .ok null
  | bool b, .boolean => .ok (bool b)
  | int i, .integer => .ok (int i)
  | int i, .real => .ok (real (Double.ofInt i.toInt))
  | real v, target => coerceReal v target
  | text s, target => coerceText s target
  | other, .text => .ok (text other.display)
  | other, target => .error (.noConversion other target)

end Scalar

end Crosstab
