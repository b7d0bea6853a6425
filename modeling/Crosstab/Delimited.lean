import Crosstab.Double.Reading
import Crosstab.Table
import Crosstab.Text.Blank

/-!
# Delimited text

Tables as lines of fields that a delimiter separates. Between quotes the delimiter is an ordinary
character, and a quote is written twice.
-/

namespace Crosstab

namespace Delimited

/-- How a table is laid out in a text. -/
structure Format where
  delimiter : Char
  /-- The first line names the columns. -/
  hasHeader : Bool
  deriving DecidableEq

/-- Commas, and a header line. -/
def Format.default : Format := ⟨',', true⟩

/-- The field that a text continues, and the fields after it. A quote opens or closes a quoted part;
inside one, two quotes stand for one. -/
def splitFields (delimiter : Char) : (quoted : Bool) → List Char → List Char × List (List Char)
  | _, [] => ([], [])
  | true, '"' :: '"' :: rest =>
    let (field, others) := splitFields delimiter true rest
    ('"' :: field, others)
  | quoted, c :: rest =>
    if c = '"' then splitFields delimiter (!quoted) rest
    else
      let (field, others) := splitFields delimiter quoted rest
      if c = delimiter ∧ quoted = false then ([], field :: others) else (c :: field, others)

def fields (delimiter : Char) (line : List Char) : List String :=
  let (first, others) := splitFields delimiter false line
  (first :: others).map String.ofList

/-- The rows of the lines that are not blank. -/
def rowsOf (delimiter : Char) (lines : List (List Char)) : List (List String) :=
  (lines.filter fun line => !line.all Text.isBlank).map (fields delimiter)

/-- The name of a column without a header, by its position. -/
def columnName (i : Nat) : String := s!"col{i}"

/-- The names of the columns, and the rows. Without a header the first row says how many columns
there are. -/
def layout (format : Format) (lines : List (List Char)) :
    Except IoError (List String × List (List String)) :=
  if format.hasHeader then
    match lines with
    | [] => .error .emptyText
    | header :: rest =>
      .ok ((fields format.delimiter header).map Text.trimmed, rowsOf format.delimiter rest)
  else
    let rows := rowsOf format.delimiter lines
    .ok ((List.range (rows.headD []).length).map columnName, rows)

/-- The rows filled up to a width with blank cells; the first row that is wider counts. -/
def fillRows (width : Nat) : (number : Nat) → List (List String) →
    Except IoError (List (List String))
  | _, [] => .ok []
  | number, row :: rows =>
    if width < row.length then .error (.rowTooLong number row.length width)
    else (fillRows width (number + 1) rows).map (row.rightpad width "" :: ·)

/-- The type of a column: integer if every cell that is not blank is one, else real if every one is
a number, else text. A column of blank cells is text. -/
def columnType (cells : List String) : DataType :=
  let filled := (cells.filter fun cell => !Text.isBlankText cell).map fun cell =>
    Text.trim cell.toList
  if filled = [] then .text
  else if filled.all fun cs => (readInt64? cs).isSome then .integer
  else if filled.all fun cs => (Double.read? cs).isSome then .real
  else .text

/-- The value of a cell in a column of the type. Blank ends count in texts only. -/
def cellValue (type : DataType) (cell : String) : Scalar :=
  if Text.isBlankText cell then .null
  else match type with
    | .integer => ((readInt64? (Text.trim cell.toList)).map Scalar.int).getD .null
    | .real => ((Double.read? (Text.trim cell.toList)).map Scalar.real).getD .null
    | _ => .text cell

/-- The types of the columns of rows of one width. -/
def columnTypes (width : Nat) (rows : List (List String)) : List DataType :=
  (List.range width).map fun i => columnType (rows.map fun row => row.getD i "")

/-- The table that a text holds. -/
def read (format : Format) (text : String) : Except Error Table := do
  let (names, rows) ← (layout format (Text.linesOf text.toList)).mapError .io
  let rows ← (fillRows names.length 1 rows).mapError .io
  let types := columnTypes names.length rows
  let schema ← (Schema.ofColumns (List.zipWith Column.named names types)).mapError .schema
  return ⟨schema, rows.map (List.zipWith cellValue types)⟩

/-- The table in a file, given what the files hold. -/
def readAt (format : Format) (contents : String → Option String) (path : String) :
    Except Error Table :=
  if '\x00' ∈ path.toList then .error (.io (.nulInPath path))
  else match contents path with
    | some text => read format text
    | none => .error (.io (.noSuchFile path))

end Delimited

end Crosstab
