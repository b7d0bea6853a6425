import Crosstab.Schema

namespace Crosstab

/-- Rows of values under the columns of a schema. -/
structure Table where
  schema : Schema
  rows : List (List Scalar)
  deriving DecidableEq

namespace Table

def rowCount (t : Table) : Nat := t.rows.length

/-- The position of the column that a name means. -/
def position (t : Table) (name : String) : Except SchemaError Nat :=
  match t.schema.index? name with
  | some i => .ok i
  | none => .error (.unknownColumn name)

/-- The values at one position, in the order of the rows; the first row that is too short counts. -/
def valuesAt (i : Nat) : (number : Nat) → List (List Scalar) → Except SchemaError (List Scalar)
  | _, [] => .ok []
  | number, row :: rows =>
    match row[i]? with
    | some v => (valuesAt i (number + 1) rows).map (v :: ·)
    | none => .error (.shortRow number row.length)

def column (t : Table) (name : String) : Except SchemaError (List Scalar) := do
  valuesAt (← t.position name) 0 t.rows

def value (t : Table) (row : Nat) (name : String) : Except SchemaError Scalar := do
  let i ← t.position name
  match t.rows[row]?.bind (·[i]?) with
  | some v => return v
  | none => throw (.rowOutOfRange row)

end Table

end Crosstab
