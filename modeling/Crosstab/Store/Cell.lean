import Crosstab.Scalar.Coercion

/-!
# Stored cells

What a store keeps in a cell, and how scalars go into cells and come back. A store has no truth
values: they are kept as the integers 0 and 1, and read back by the type of the column.
-/

namespace Crosstab

inductive Cell
  | null
  | integer (value : Int64)
  | real (value : Double)
  | text (value : String)
  | blob (bytes : List UInt8)
  deriving DecidableEq

namespace Cell

def ofScalar : Scalar → Cell
  | .null => null
  | .bool b => integer (if b then 1 else 0)
  | .int i => integer i
  | .real v => real v
  | .text s => text s

/-- What a column of the type keeps of a cell. No column keeps a real that is not a number, and a
real column does not tell the two zeros apart. -/
def settled (type : Option String) : Cell → Cell
  | real v =>
    if v.isNaN then null
    else if type = some "REAL" ∧ v = Double.zero true then real (Double.zero false)
    else real v
  | cell => cell

/-- A cell for messages, with its kind. -/
def shown : Cell → String
  | null => "Null"
  | integer i => s!"Integer({i.toInt})"
  | real v => s!"Real({v.literal})"
  | text s => s!"Text({Text.escaped s})"
  | blob bytes => s!"Blob({bytes.map UInt8.toNat})"

/-- The value of a cell in a column of the type. -/
def toScalar (cell : Cell) (type : DataType) : Except CellError Scalar :=
  match cell, type with
  | null, _ => .ok .null
  | integer i, .boolean => .ok (.bool (i != 0))
  | integer i, .integer => .ok (.int i)
  | integer i, .real => .ok (.real (Double.ofInt i.toInt))
  | integer i, .text => .ok (.text (toString i.toInt))
  | real v, .real => .ok (.real v)
  | real v, .text => .ok (.text v.plain)
  | real v, .integer =>
    match v.toInt? with
    | some i => .ok (.int (clampInt64 i))
    | none => .error (.real v .integer)
  | real v, .boolean => .error (.real v .boolean)
  | text s, type => ((Scalar.text s).coerce type).mapError .type
  | blob _, type => .error (.blob type)

end Cell

end Crosstab
