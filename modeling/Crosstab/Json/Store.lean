import Crosstab.Json.Schema
import Crosstab.Store

namespace Crosstab

open Json (Draft Fields)
open Json.Draft (Decoded)

namespace Table

def toJson (t : Table) : Json :=
  .object [("schema", t.schema.toJson),
    ("rowData", .array (t.rows.map fun row => .array (row.map Scalar.toJson)))]

def ofDraft (d : Draft) : Decoded Table := do
  let (schema, rows, ()) ←
    (Fields.must "schema" (Schema.ofDraft false) <|
      .must "rowData" (Draft.listOf (Draft.listOf Scalar.ofDraft)) .done).read d
  return ⟨schema, rows⟩

def ofText : String → Decoded Table := Draft.ofText Table.ofDraft

end Table

namespace StoreOptions

def ofDraft (d : Draft) : Decoded StoreOptions := do
  let (path, showQueries, readOnly, ()) ←
    (Fields.may "path" (Draft.optional Draft.text) default.path <|
      .may "show_queries" Draft.flag default.showQueries <|
        .may "read_only" Draft.flag default.readOnly .done).read d
  return ⟨path, showQueries, readOnly⟩

def ofText : String → Decoded StoreOptions := Draft.ofText ofDraft

end StoreOptions

end Crosstab
