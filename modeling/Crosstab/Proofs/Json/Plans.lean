import Crosstab.Proofs.Json.Expressions

namespace Crosstab

open Json (Draft Fields Number)
open Json.Draft (ofJson)

def Plan.reals {s : Schema} : Plan s → List Double
  | table .. => []
  | filter source predicate _ => source.reals ++ predicate.reals
  | extend source _ _ value _ => source.reals ++ value.reals
  | project source .. | groupBy source .. | sort source .. | mapColumns source ..
  | mapColumnsAt source .. => source.reals
  | concat left right _ | join left right .. => left.reals ++ right.reals

/-- The positions that a plan names columns by. -/
def Plan.positions {s : Schema} : Plan s → List Nat
  | table .. => []
  | mapColumnsAt source mapping _ => source.positions ++ mapping.entries.map (·.1)
  | project source .. | filter source .. | groupBy source .. | sort source .. | extend source ..
  | mapColumns source .. => source.positions
  | concat left right _ | join left right .. => left.positions ++ right.positions

namespace Plan

variable {s : Schema}

def operator : Plan s → Operator
  | table .. => .table
  | project .. => .project
  | filter .. => .filter
  | groupBy .. => .groupBy
  | sort .. => .sort
  | extend .. => .extend
  | mapColumns .. => .mapColumns
  | mapColumnsAt .. => .mapColumnsByIndex
  | concat .. => .concat
  | join .. => .join

def fields : Plan s → List (String × Json)
  | table name s _ => [("tableName", .string name), ("schema", s.toJson)]
  | project source columns _ => [("from", source.toJson), ("columns", Json.strings columns)]
  | filter source predicate _ => [("from", source.toJson), ("predicate", predicate.toJson)]
  | groupBy source columns aggregates _ =>
    [("from", source.toJson), ("columns", Json.strings columns),
      ("aggs", .array (aggregates.map AggregateColumn.toJson))]
  | sort source keys _ =>
    [("from", source.toJson), ("keys", .array (keys.map SortKey.toJson))]
  | extend source column type value _ =>
    [("from", source.toJson), ("column", .string column), ("type", type.toJson),
      ("value", value.toJson)]
  | mapColumns source mapping _ => [("from", source.toJson), ("mapping", mappingJson mapping)]
  | mapColumnsAt source mapping _ =>
    [("from", source.toJson), ("mapping", mappingJson (indexTexts mapping))]
  | concat left right _ => [("from", left.toJson), ("target", right.toJson)]
  | join left right keys kind nullSafe _ =>
    [("from", left.toJson), ("target", right.toJson), ("on", Json.strings keys),
      ("joinType", .string kind.tag)] ++ if nullSafe then [("nullSafe", .bool true)] else []

theorem toJson_eq (p : Plan s) :
    p.toJson = .object (("operator", .string p.operator.tag) :: p.fields) := by
  cases p <;> rfl

theorem tagged_toJson (p : Plan s) (buffered : Bool) :
    (ofJson p.toJson).tagged buffered "operator" Operator.all Operator.tag =
      .ok (p.operator, ofJson (.object p.fields)) := by
  rw [toJson_eq]
  refine Draft.tagged_ofJson ?_ buffered ?_
  · cases p <;> rfl
  · cases p with
    | join left right keys kind nullSafe => cases nullSafe <;> simp [fields]
    | table | project | filter | groupBy | sort | extend | mapColumns | mapColumnsAt | concat =>
      simp [fields]

theorem exists_levels {p : Plan s} {levels : Nat} (deep : p.toJson.depth ≤ levels) :
    ∃ n, levels = n + 1 ∧ ∀ f ∈ p.fields, f.2.depth ≤ n := by
  rw [toJson_eq, Json.depth, Json.depthFields, Json.depth] at deep
  exact ⟨levels - 1, by omega, fun f hf => (Json.depth_le_of_mem hf).trans (by omega)⟩

/-! ## Decoding the fields of each operator -/

/-- The plan is decoded from its fields, with a decoder for the plans below it. -/
def DecodedBy (child : Draft → Draft.Decoded Query) (p : Plan s) : Prop :=
  Query.ofFields child (ofJson (.object p.fields)) p.operator = .ok ⟨s, p⟩

theorem mapOf_mappingJson (mapping : OrderedMap String Renaming) :
    Draft.mapOf Renaming.ofDraft (ofJson (mappingJson mapping)) = .ok mapping :=
  Draft.mapOf_ofJson fun e _ => e.2.ofDraft_toJson

section
variable {child : Draft → Draft.Decoded Query} {t r : Schema}

theorem decodedBy_table (name : String) (schema : Schema) (named : name ≠ "") :
    (table name schema named).DecodedBy child := by
  refine bind_eq_ok_iff.2 ⟨(name, schema, ()), Fields.read_of_writes _ (by simp [Fields.names])
    ⟨_, _, rfl, rfl, _, _, rfl, schema.ofDraft_toJson true, rfl⟩, mapError_eq_ok_iff.2 ?_⟩
  exact dif_neg named

variable {source : Plan s} (below : child (ofJson source.toJson) = .ok ⟨s, source⟩)
include below

theorem decodedBy_project {columns : List String} (derived : s.project columns = .ok t) :
    (project source columns derived).DecodedBy child := by
  refine bind_eq_ok_iff.2 ⟨(⟨s, source⟩, columns, ()),
    Fields.read_of_writes _ (by simp [Fields.names])
      ⟨_, _, rfl, below, _, _, rfl, Draft.listOf_strings columns, rfl⟩, mapError_eq_ok_iff.2 ?_⟩
  exact Query.project_eq_ok_iff.2 ⟨t, derived, rfl⟩

theorem decodedBy_filter {predicate : Expr} (checked : s.checkPredicate predicate = .ok ())
    (deep : predicate.toJson.depth ≤ nestingLimit) :
    (filter source predicate checked).DecodedBy child := by
  refine bind_eq_ok_iff.2 ⟨(⟨s, source⟩, predicate, ()),
    Fields.read_of_writes _ (by simp [Fields.names])
      ⟨_, _, rfl, below, _, _, rfl, predicate.ofDraft_toJson _ true deep, rfl⟩,
    mapError_eq_ok_iff.2 ?_⟩
  exact Query.filter_eq_ok_iff.2 ⟨checked, rfl⟩

theorem decodedBy_groupBy {columns : List String} {aggregates : List AggregateColumn}
    (derived : s.groupBy columns aggregates = .ok t) :
    (groupBy source columns aggregates derived).DecodedBy child := by
  have list := Draft.listOf_ofJson fun a (_ : a ∈ aggregates) => a.ofDraft_toJson
  refine bind_eq_ok_iff.2 ⟨(⟨s, source⟩, columns, aggregates, ()),
    Fields.read_of_writes _ (by simp [Fields.names])
      ⟨_, _, rfl, below, _, _, rfl, Draft.listOf_strings columns, _, _, rfl, list, rfl⟩,
    mapError_eq_ok_iff.2 ?_⟩
  exact Query.groupBy_eq_ok_iff.2 ⟨t, derived, rfl⟩

theorem decodedBy_sort {keys : List SortKey} (checked : s.checkSort keys = .ok ()) :
    (sort source keys checked).DecodedBy child := by
  have list := Draft.listOf_ofJson fun k (_ : k ∈ keys) => k.ofDraft_toJson
  refine bind_eq_ok_iff.2 ⟨(⟨s, source⟩, keys, ()),
    Fields.read_of_writes _ (by simp [Fields.names])
      ⟨_, _, rfl, below, _, _, rfl, list, rfl⟩, mapError_eq_ok_iff.2 ?_⟩
  exact Query.sort_eq_ok_iff.2 ⟨checked, rfl⟩

theorem decodedBy_extend {column : String} {type : DataType} {value : Expr}
    (derived : s.extend column type value = .ok t) (deep : value.toJson.depth ≤ nestingLimit) :
    (extend source column type value derived).DecodedBy child := by
  refine bind_eq_ok_iff.2 ⟨(⟨s, source⟩, column, type, value, ()),
    Fields.read_of_writes _ (by simp [Fields.names])
      ⟨_, _, rfl, below, _, _, rfl, rfl, _, _, rfl, type.ofDraft_toJson true, _, _, rfl,
        value.ofDraft_toJson _ true deep, rfl⟩, mapError_eq_ok_iff.2 ?_⟩
  exact Query.extend_eq_ok_iff.2 ⟨t, derived, rfl⟩

theorem decodedBy_mapColumns {mapping : OrderedMap String Renaming}
    (derived : s.mapColumns mapping = .ok t) :
    (mapColumns source mapping derived).DecodedBy child := by
  refine bind_eq_ok_iff.2 ⟨(⟨s, source⟩, mapping, ()),
    Fields.read_of_writes _ (by simp [Fields.names])
      ⟨_, _, rfl, below, _, _, rfl, mapOf_mappingJson mapping, rfl⟩, mapError_eq_ok_iff.2 ?_⟩
  exact Query.derive_eq_ok_iff.2 ⟨t, derived, rfl⟩

theorem decodedBy_mapColumnsAt {mapping : OrderedMap Nat Renaming}
    (derived : s.mapColumnsAt mapping = .ok t) (fit : ∀ e ∈ mapping.entries, e.1 < pow2 64) :
    (mapColumnsAt source mapping derived).DecodedBy child := by
  have positions := bind_eq_ok_iff.2 ⟨_, mapOf_mappingJson (indexTexts mapping),
    ofIndexTexts_indexTexts fit⟩
  refine bind_eq_ok_iff.2 ⟨(⟨s, source⟩, mapping, ()),
    Fields.read_of_writes _ (by simp [Fields.names])
      ⟨_, _, rfl, below, _, _, rfl, positions, rfl⟩, mapError_eq_ok_iff.2 ?_⟩
  exact Query.derive_eq_ok_iff.2 ⟨t, derived, rfl⟩

variable {other : Plan r} (beside : child (ofJson other.toJson) = .ok ⟨r, other⟩)
include beside

theorem decodedBy_concat (derived : s.concat r = .ok t) :
    (concat source other derived).DecodedBy child := by
  refine bind_eq_ok_iff.2 ⟨(⟨s, source⟩, ⟨r, other⟩, ()),
    Fields.read_of_writes _ (by simp [Fields.names])
      ⟨_, _, rfl, below, _, _, rfl, beside, rfl⟩, mapError_eq_ok_iff.2 ?_⟩
  exact Query.concat_eq_ok_iff.2 ⟨t, derived, rfl⟩

theorem decodedBy_join {keys : List String} (kind : JoinKind) (nullSafe : Bool)
    (derived : s.join r keys = .ok t) :
    (join source other keys kind nullSafe derived).DecodedBy child := by
  have tag : Draft.named true JoinKind.ofTag? (ofJson (.string kind.tag)) = .ok kind := by
    cases kind <;> rfl
  have last : (Fields.may "nullSafe" Draft.flag false .done).Writes
      (if nullSafe then [("nullSafe", .bool true)] else []) (nullSafe, ()) := by
    cases nullSafe with
    | false => exact .inl ⟨rfl, rfl⟩
    | true => exact .inr ⟨_, _, rfl, rfl, rfl⟩
  refine bind_eq_ok_iff.2 ⟨(⟨s, source⟩, ⟨r, other⟩, keys, kind, nullSafe, ()),
    Fields.read_of_writes _ (by simp [Fields.names])
      ⟨_, _, rfl, below, _, _, rfl, beside, _, _, rfl, Draft.listOf_strings keys, _, _, rfl, tag,
        last⟩, mapError_eq_ok_iff.2 ?_⟩
  exact Query.join_eq_ok_iff.2 ⟨t, derived, rfl⟩

end

/-! ## Decoding a plan -/

theorem ofDraft_of_decodedBy {p : Plan s} {levels : Nat} (buffered : Bool)
    (h : p.DecodedBy (Query.ofDraft levels true)) :
    Query.ofDraft (levels + 1) buffered (ofJson p.toJson) = .ok ⟨s, p⟩ :=
  bind_eq_ok_iff.2 ⟨_, p.tagged_toJson buffered, h⟩

/-- A plan is decoded from what it was encoded to, if that does not nest too deep. -/
theorem ofDraft_toJson (p : Plan s) {levels : Nat} (buffered : Bool)
    (deep : p.toJson.depth ≤ levels) (limit : levels ≤ nestingLimit)
    (fit : ∀ i ∈ p.positions, i < pow2 64) :
    Query.ofDraft levels buffered (ofJson p.toJson) = .ok ⟨s, p⟩ := by
  induction p generalizing levels buffered with
  | table name schema named =>
    obtain ⟨n, rfl, -⟩ := exists_levels deep
    exact ofDraft_of_decodedBy buffered (decodedBy_table name schema named)
  | project source columns derived ih =>
    obtain ⟨n, rfl, inside⟩ := exists_levels deep
    have below := ih true (inside ("from", source.toJson) (by simp [fields])) (by omega) fit
    exact ofDraft_of_decodedBy buffered (decodedBy_project below derived)
  | filter source predicate checked ih =>
    obtain ⟨n, rfl, inside⟩ := exists_levels deep
    have below := ih true (inside ("from", source.toJson) (by simp [fields])) (by omega) fit
    have shallow : predicate.toJson.depth ≤ n :=
      inside ("predicate", predicate.toJson) (by simp [fields])
    exact ofDraft_of_decodedBy buffered (decodedBy_filter below checked (by omega))
  | groupBy source columns aggregates derived ih =>
    obtain ⟨n, rfl, inside⟩ := exists_levels deep
    have below := ih true (inside ("from", source.toJson) (by simp [fields])) (by omega) fit
    exact ofDraft_of_decodedBy buffered (decodedBy_groupBy below derived)
  | sort source keys checked ih =>
    obtain ⟨n, rfl, inside⟩ := exists_levels deep
    have below := ih true (inside ("from", source.toJson) (by simp [fields])) (by omega) fit
    exact ofDraft_of_decodedBy buffered (decodedBy_sort below checked)
  | extend source column type value derived ih =>
    obtain ⟨n, rfl, inside⟩ := exists_levels deep
    have below := ih true (inside ("from", source.toJson) (by simp [fields])) (by omega) fit
    have shallow : value.toJson.depth ≤ n := inside ("value", value.toJson) (by simp [fields])
    exact ofDraft_of_decodedBy buffered (decodedBy_extend below derived (by omega))
  | mapColumns source mapping derived ih =>
    obtain ⟨n, rfl, inside⟩ := exists_levels deep
    have below := ih true (inside ("from", source.toJson) (by simp [fields])) (by omega) fit
    exact ofDraft_of_decodedBy buffered (decodedBy_mapColumns below derived)
  | mapColumnsAt source mapping derived ih =>
    obtain ⟨n, rfl, inside⟩ := exists_levels deep
    obtain ⟨lower, here⟩ := List.forall_mem_append.1 fit
    have below := ih true (inside ("from", source.toJson) (by simp [fields])) (by omega) lower
    exact ofDraft_of_decodedBy buffered
      (decodedBy_mapColumnsAt below derived (List.forall_mem_map.1 here))
  | concat left right derived ihl ihr =>
    obtain ⟨n, rfl, inside⟩ := exists_levels deep
    obtain ⟨fitl, fitr⟩ := List.forall_mem_append.1 fit
    have below := ihl true (inside ("from", left.toJson) (by simp [fields])) (by omega) fitl
    have beside := ihr true (inside ("target", right.toJson) (by simp [fields])) (by omega) fitr
    exact ofDraft_of_decodedBy buffered (decodedBy_concat below beside derived)
  | join left right keys kind nullSafe derived ihl ihr =>
    obtain ⟨n, rfl, inside⟩ := exists_levels deep
    obtain ⟨fitl, fitr⟩ := List.forall_mem_append.1 fit
    have below := ihl true (inside ("from", left.toJson) (by simp [fields])) (by omega) fitl
    have beside := ihr true (inside ("target", right.toJson) (by simp [fields])) (by omega) fitr
    exact ofDraft_of_decodedBy buffered (decodedBy_join below beside kind nullSafe derived)

/-! ## Numbers -/

section
variable {P : Number → Prop}

theorem numbers_mappingJson (mapping : OrderedMap String Renaming) :
    (ofJson (mappingJson mapping)).Numbers P :=
  Draft.numbers_ofJson_object.2 (List.forall_mem_map.2 fun e _ => e.2.numbers_toJson)

theorem numbers_iff_fields (p : Plan s) :
    (ofJson p.toJson).Numbers P ↔ ∀ f ∈ p.fields, (ofJson f.2).Numbers P := by
  rw [toJson_eq, Draft.numbers_ofJson_object]
  simp

/-- The numbers of a plan are its integers and its real constants. -/
theorem numbers_toJson (ints : ∀ i : Int64, P (.int i.toInt)) (p : Plan s) :
    (ofJson p.toJson).Numbers P ↔ ∀ v ∈ p.reals, P (.real v) := by
  induction p with
  | table name schema =>
    rw [numbers_iff_fields]
    simp [fields, reals, schema.numbers_toJson]
  | project source columns _ ih =>
    rw [numbers_iff_fields]
    simp [fields, reals, ih, Draft.numbers_strings]
  | filter source predicate _ ih =>
    rw [numbers_iff_fields]
    simp [fields, reals, ih, predicate.numbers_toJson ints, or_imp, forall_and]
  | groupBy source columns aggregates _ ih =>
    rw [numbers_iff_fields]
    simp [fields, reals, ih, Draft.numbers_strings, AggregateColumn.numbers_toJson]
  | sort source keys _ ih =>
    rw [numbers_iff_fields]
    simp [fields, reals, ih, SortKey.numbers_toJson]
  | extend source column type value _ ih =>
    rw [numbers_iff_fields]
    simp [fields, reals, ih, DataType.toJson, value.numbers_toJson ints, or_imp, forall_and]
  | mapColumns source mapping _ ih | mapColumnsAt source mapping _ ih =>
    rw [numbers_iff_fields]
    simp [fields, reals, ih, numbers_mappingJson]
  | concat left right _ ihl ihr =>
    rw [numbers_iff_fields]
    simp [fields, reals, ihl, ihr, or_imp, forall_and]
  | join left right keys kind nullSafe _ ihl ihr =>
    rw [numbers_iff_fields]
    cases nullSafe <;>
      simp [fields, reals, ihl, ihr, Draft.numbers_strings, or_imp, forall_and]

end

end Plan

end Crosstab
