import Crosstab.Json.Record
import Crosstab.Schema

namespace Crosstab

open Json (Draft Fields)
open Json.Draft (Decoded)

namespace Scalar

def toJson : Scalar → Json
  | null => .null
  | bool b => .bool b
  | int i => .int i.toInt
  | real v => .real v
  | text s => .string s

/-- The scalar that a whole number is. -/
def ofInt (i : Int) : Scalar :=
  if FitsInt64 i then int (Int64.ofInt i) else real (Double.ofInt i)

def ofDraft : Draft → Decoded Scalar
  | .null => .ok null
  | .bool b => .ok (bool b)
  | .number (some (.int i)) => .ok (ofInt i)
  | .number (some (.real v)) => .ok (real v)
  | .string (some s) => .ok (text s)
  | _ => .error .malformed

end Scalar

def DataType.toJson (type : DataType) : Json := .string type.name

def DataType.ofDraft (buffered : Bool) : Draft → Decoded DataType :=
  Draft.named buffered DataType.ofExactName?

def Metadata.toJson (m : Metadata) : Json :=
  .object [("type", m.type.toJson), ("displayName", .string m.displayName)]

def Metadata.ofDraft (buffered : Bool) (d : Draft) : Decoded Metadata := do
  let (type, displayName, ()) ←
    (Fields.must "type" (DataType.ofDraft buffered) <| .must "displayName" Draft.text .done).read d
  return ⟨type, displayName⟩

namespace Schema

def toJson (s : Schema) : Json :=
  let metadata := OrderedMap.ofList (s.columns.map fun c => (c.id, c.metadata))
  .object [("columns", Json.strings s.ids),
    ("columnMetadata", .object (metadata.entries.map fun (id, m) => (id, m.toJson)))]

/-- The column of an id, by what is known of columns. -/
def knownColumn (metadata : OrderedMap String Metadata) (id : String) :
    Except SchemaError Column :=
  match metadata.get? id with
  | some m => .ok ⟨id, m.type, m.displayName⟩
  | none => .error (.noMetadata id)

/-- The schema of a list of ids and what is known of columns. -/
def ofMetadata (ids : List String) (metadata : OrderedMap String Metadata) :
    Except SchemaError Schema := do
  ofColumns (← ids.mapM (knownColumn metadata))

def ofDraft (buffered : Bool) (d : Draft) : Decoded Schema := do
  let (ids, metadata, ()) ←
    (Fields.must "columns" (Draft.listOf Draft.text) <|
      .must "columnMetadata" (Draft.mapOf (Metadata.ofDraft buffered)) .done).read d
  (ofMetadata ids metadata).mapError .schema

end Schema

end Crosstab
