import Crosstab.Json.Query
import Crosstab.Pivot.Tree

/-!
# Open paths and pivot specifications in JSON

Open paths are a list of entries with the value of a node and the entries below it, which are left
out where there are none; of two entries with one value the later counts. In a pivot specification
every field has a default.
-/

namespace Crosstab

open Json (Draft Fields)
open Json.Draft (Decoded)

def PathKey.toJson (key : PathKey) : Json := Json.orNull .string key

def Forest.toJsons : Forest → List Json
  | leaf => []
  | node key below beside =>
    let children := if below = leaf then [] else [("children", Json.array below.toJsons)]
    .object (("value", PathKey.toJson key) :: children) :: beside.toJsons

namespace OpenPaths

def toJson (p : OpenPaths) : Json := .array p.forest.toJsons

/-- The open paths of a JSON value that nests at most `levels` arrays and objects. -/
def ofDraft : (levels : Nat) → Draft → Decoded OpenPaths
  | _ + 1, .array [] => .ok empty
  | levels + 2, .array items => do
    let entries ← items.mapM fun d => do
      let (key, below, ()) ←
        (Fields.nullable "value" Draft.text <| .may "children" (ofDraft levels) empty .done).read d
      return (key, below)
    return ofEntries entries
  | _, _ => .error .malformed

def ofText : String → Decoded OpenPaths := Draft.ofText (ofDraft nestingLimit)

end OpenPaths

namespace PivotSpec

def toJson (spec : PivotSpec) : Json :=
  .object [("pivotColumns", Json.strings spec.pivotColumns),
    ("leafColumn", Json.orNull .string spec.leafColumn), ("showRoot", .bool spec.showRoot),
    ("showLeafRows", .bool spec.showLeafRows),
    ("sortKey", .array (spec.sortKey.map SortKey.toJson)),
    ("aggregations", .object (spec.aggregations.entries.map fun (name, func) =>
      (name, .string func.tag)))]

def ofDraft (d : Draft) : Decoded PivotSpec := do
  let (pivotColumns, leafColumn, showRoot, showLeafRows, sortKey, aggregations, ()) ←
    (Fields.may "pivotColumns" (Draft.listOf Draft.text) default.pivotColumns <|
      .may "leafColumn" (Draft.optional Draft.text) default.leafColumn <|
        .may "showRoot" Draft.flag default.showRoot <|
          .may "showLeafRows" Draft.flag default.showLeafRows <|
            .may "sortKey" (Draft.listOf SortKey.ofDraft) default.sortKey <|
              .may "aggregations" (Draft.mapOf (Draft.named false Aggregate.ofTag?))
                default.aggregations .done).read d
  return ⟨pivotColumns, leafColumn, showRoot, showLeafRows, sortKey, aggregations⟩

def ofText : String → Decoded PivotSpec := Draft.ofText ofDraft

end PivotSpec

end Crosstab
