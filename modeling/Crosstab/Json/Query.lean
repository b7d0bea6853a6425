import Crosstab.Json.Schema
import Crosstab.Query.Plan

/-!
# Expressions and queries in JSON

An expression and a query are objects whose first field names the kind of node; the fields of the
node follow. Both are read as a whole before they are taken apart, and a query that is read is built
node by node, so it obeys the schema rules at every node.
-/

namespace Crosstab

open Json (Draft Fields)
open Json.Draft (Decoded)

/-- The number of arrays and objects that may lie inside each other. -/
def nestingLimit : Nat := 127

/-- The parts of a tagged record: its variant, and its fields without the tag. -/
def Json.Draft.tagged {α : Type} (buffered : Bool) (tagName : String) (all : List α)
    (tagOf : α → String) : Draft → Decoded (α × Draft)
  | .object fields =>
    match fields.filter (·.1 == some tagName) with
    | [(_, d)] => do
      return (← d.variant buffered all tagOf, .object (fields.filter (·.1 != some tagName)))
    | _ => .error .malformed
  | .array (d :: items) => do return (← d.variant buffered all tagOf, .array items)
  | _ => .error .malformed

def SortKey.toJson (k : SortKey) : Json :=
  .object [("column", .string k.column), ("asc", .bool k.ascending)]

def SortKey.ofDraft (d : Draft) : Decoded SortKey := do
  let (column, ascending, ()) ←
    (Fields.must "column" Draft.text <| .must "asc" Draft.flag .done).read d
  return ⟨column, ascending⟩

namespace Expr

mutual

def toJson : Expr → Json
  | column name => .object [("expType", .string "columnRef"), ("column", .string name)]
  | const value type =>
    .object [("expType", .string "const"), ("value", value.toJson), ("type", type.toJson)]
  | combine op operands =>
    .object [("expType", .string "combinator"), ("op", .string op.tag),
      ("operands", .array (toJsons operands))]
  | rowNumber keys =>
    .object [("expType", .string "rowNumber"), ("keys", .array (keys.map SortKey.toJson))]

def toJsons : List Expr → List Json
  | [] => []
  | e :: rest => toJson e :: toJsons rest

end

inductive Kind
  | column
  | const
  | combine
  | rowNumber

def Kind.all : List Kind := [.column, .const, .combine, .rowNumber]

def Kind.tag : Kind → String
  | column => "columnRef"
  | const => "const"
  | combine => "combinator"
  | rowNumber => "rowNumber"

/-- The expression of a draft that nests at most `levels` expressions. -/
def ofDraft (levels : Nat) (buffered : Bool) (d : Draft) : Decoded Expr :=
  match levels with
  | 0 => .error .malformed
  | levels + 1 => do
    let (kind, fields) ← d.tagged buffered "expType" Kind.all Kind.tag
    match kind with
    | .column =>
      let (name, ()) ← (Fields.must "column" Draft.text .done).read fields
      return column name
    | .const =>
      let (value, type, ()) ←
        (Fields.must "value" Scalar.ofDraft <|
          .must "type" (DataType.ofDraft true) .done).read fields
      return const value type
    | .combine =>
      let (op, operands, ()) ←
        (Fields.must "op" (Draft.named true Operation.ofTag?) <|
          .must "operands" (Draft.listOf (ofDraft levels true)) .done).read fields
      return combine op operands
    | .rowNumber =>
      let (keys, ()) ← (Fields.must "keys" (Draft.listOf SortKey.ofDraft) .done).read fields
      return rowNumber keys

def ofText : String → Decoded Expr := Draft.ofText fun d =>
  if d.sound nestingLimit then ofDraft nestingLimit false d else .error .malformed

end Expr

def AggregateColumn.toJson (a : AggregateColumn) : Json :=
  .object [("func", .string a.func.tag), ("column", .string a.column)]

def AggregateColumn.ofDraft (d : Draft) : Decoded AggregateColumn := do
  let (func, column, ()) ←
    (Fields.must "func" (Draft.named true Aggregate.ofTag?) <|
      .must "column" Draft.text .done).read d
  return ⟨func, column⟩

/-- The JSON form of new names; those that do not change are left out. -/
def Renaming.toJson (r : Renaming) : Json :=
  .object ((r.id.toList.map fun id => ("id", .string id)) ++
    r.displayName.toList.map fun name => ("displayName", .string name))

def Renaming.ofDraft (d : Draft) : Decoded Renaming := do
  let (id, displayName, ()) ←
    (Fields.may "id" (Draft.optional Draft.text) none <|
      .may "displayName" (Draft.optional Draft.text) none .done).read d
  return ⟨id, displayName⟩

def mappingJson (mapping : OrderedMap String Renaming) : Json :=
  .object (mapping.entries.map fun (name, r) => (name, r.toJson))

/-- New names by position, with the positions as texts. -/
def indexTexts (mapping : OrderedMap Nat Renaming) : OrderedMap String Renaming :=
  .ofList (mapping.entries.map fun (index, r) => (toString index, r))

/-- New names by position from positions as texts. The first text that is no position counts. -/
def ofIndexTexts (mapping : OrderedMap String Renaming) : Decoded (OrderedMap Nat Renaming) := do
  let entries ← mapping.entries.mapM fun (key, r) =>
    match readIndex? key.toList with
    | some index => Except.ok (index, r)
    | none => .error (.columnIndex key)
  return .ofList entries

namespace Plan

def toJson {s : Schema} : Plan s → Json
  | table name s _ =>
    .object [("operator", .string "table"), ("tableName", .string name), ("schema", s.toJson)]
  | project source columns _ =>
    .object [("operator", .string "project"), ("from", source.toJson),
      ("columns", Json.strings columns)]
  | filter source predicate _ =>
    .object [("operator", .string "filter"), ("from", source.toJson),
      ("predicate", predicate.toJson)]
  | groupBy source columns aggregates _ =>
    .object [("operator", .string "groupBy"), ("from", source.toJson),
      ("columns", Json.strings columns), ("aggs", .array (aggregates.map AggregateColumn.toJson))]
  | sort source keys _ =>
    .object [("operator", .string "sort"), ("from", source.toJson),
      ("keys", .array (keys.map SortKey.toJson))]
  | extend source column type value _ =>
    .object [("operator", .string "extend"), ("from", source.toJson), ("column", .string column),
      ("type", type.toJson), ("value", value.toJson)]
  | mapColumns source mapping _ =>
    .object [("operator", .string "mapColumns"), ("from", source.toJson),
      ("mapping", mappingJson mapping)]
  | mapColumnsAt source mapping _ =>
    .object [("operator", .string "mapColumnsByIndex"), ("from", source.toJson),
      ("mapping", mappingJson (indexTexts mapping))]
  | concat left right _ =>
    .object [("operator", .string "concat"), ("from", left.toJson), ("target", right.toJson)]
  | join left right keys kind nullSafe _ =>
    .object ([("operator", .string "join"), ("from", left.toJson), ("target", right.toJson),
      ("on", Json.strings keys), ("joinType", .string kind.tag)] ++
      if nullSafe then [("nullSafe", .bool true)] else [])

end Plan

namespace Query

def toJson (q : Query) : Json := q.plan.toJson

/-- The error of a query that cannot be built, as an error of the text that describes it. -/
def jsonError : Error → JsonError
  | .schema e => .schema e
  | .type e => .type e
  | .build e => .build e
  | .json e => e
  | _ => .malformed

/-- The query of a node of a kind from its fields, with a decoder for the queries below it. -/
def ofFields (child : Draft → Decoded Query) (fields : Draft) : Operator → Decoded Query
  | .table => do
    let (name, schema, ()) ←
      (Fields.must "tableName" Draft.text <| .must "schema" (Schema.ofDraft true) .done).read fields
    (table name schema).mapError .build
  | .project => do
    let (source, columns, ()) ←
      (Fields.must "from" child <| .must "columns" (Draft.listOf Draft.text) .done).read fields
    (source.project columns).mapError .build
  | .filter => do
    let (source, predicate, ()) ←
      (Fields.must "from" child <|
        .must "predicate" (Expr.ofDraft nestingLimit true) .done).read fields
    (source.filter predicate).mapError jsonError
  | .groupBy => do
    let (source, columns, aggregates, ()) ←
      (Fields.must "from" child <| .must "columns" (Draft.listOf Draft.text) <|
        .must "aggs" (Draft.listOf AggregateColumn.ofDraft) .done).read fields
    (source.groupBy columns aggregates).mapError .build
  | .sort => do
    let (source, keys, ()) ←
      (Fields.must "from" child <| .must "keys" (Draft.listOf SortKey.ofDraft) .done).read fields
    (source.sort keys).mapError .build
  | .extend => do
    let (source, column, type, value, ()) ←
      (Fields.must "from" child <| .must "column" Draft.text <|
        .must "type" (DataType.ofDraft true) <|
          .must "value" (Expr.ofDraft nestingLimit true) .done).read fields
    (source.extend column type value).mapError jsonError
  | .mapColumns => do
    let (source, mapping, ()) ←
      (Fields.must "from" child <| .must "mapping" (Draft.mapOf Renaming.ofDraft) .done).read fields
    (source.mapColumns mapping).mapError .build
  | .mapColumnsByIndex => do
    let (source, mapping, ()) ←
      (Fields.must "from" child <|
        .must "mapping" (fun d => d.mapOf Renaming.ofDraft >>= ofIndexTexts) .done).read fields
    (source.mapColumnsAt mapping).mapError .build
  | .concat => do
    let (source, target, ()) ←
      (Fields.must "from" child <| .must "target" child .done).read fields
    (source.concat target).mapError .build
  | .join => do
    let (source, target, keys, kind, nullSafe, ()) ←
      (Fields.must "from" child <| .must "target" child <|
        .must "on" (Draft.listOf Draft.text) <|
          .must "joinType" (Draft.named true JoinKind.ofTag?) <|
            .may "nullSafe" Draft.flag false .done).read fields
    (source.join target keys kind nullSafe).mapError .build

/-- The query of a draft that nests at most `levels` queries. -/
def ofDraft (levels : Nat) (buffered : Bool) (d : Draft) : Decoded Query :=
  match levels with
  | 0 => .error .malformed
  | levels + 1 => do
    let (operator, fields) ← d.tagged buffered "operator" Operator.all Operator.tag
    ofFields (ofDraft levels true) fields operator

def ofText : String → Decoded Query := Draft.ofText fun d =>
  if d.sound nestingLimit then ofDraft nestingLimit false d else .error .malformed

end Query

end Crosstab
