import Crosstab.Proofs.Json.Records
import Crosstab.Proofs.Query.Builders

namespace Crosstab

open Json (Draft Fields Number)
open Json.Draft (ofJson)

theorem Scalar.ofDraft_toJson (v : Scalar) : Scalar.ofDraft (ofJson v.toJson) = .ok v := by
  cases v with
  | int i =>
    have fits : FitsInt64 i.toInt := ⟨i.minValue_le_toInt, i.toInt_le⟩
    simp [Scalar.toJson, ofJson, Scalar.ofDraft, Scalar.ofInt, fits]
  | null | bool | real | text => rfl

theorem DataType.ofDraft_toJson (buffered : Bool) (type : DataType) :
    DataType.ofDraft buffered (ofJson type.toJson) = .ok type := by
  cases type <;> rfl

theorem Metadata.ofDraft_toJson (buffered : Bool) (m : Metadata) :
    Metadata.ofDraft buffered (ofJson m.toJson) = .ok m := by
  obtain ⟨type, displayName⟩ := m
  cases type <;> rfl

theorem SortKey.ofDraft_toJson (k : SortKey) : SortKey.ofDraft (ofJson k.toJson) = .ok k := rfl

theorem AggregateColumn.ofDraft_toJson (a : AggregateColumn) :
    AggregateColumn.ofDraft (ofJson a.toJson) = .ok a := by
  obtain ⟨func, column⟩ := a
  cases func <;> rfl

theorem Renaming.ofDraft_toJson (r : Renaming) : Renaming.ofDraft (ofJson r.toJson) = .ok r := by
  obtain ⟨id, displayName⟩ := r
  cases id <;> cases displayName <;> rfl

theorem Json.Draft.listOf_strings (values : List String) :
    listOf text (ofJson (Json.strings values)) = .ok values :=
  listOf_ofJson fun _ _ => rfl

namespace Schema

theorem ofColumns_eq_ok_iff {columns : List Column} {s : Schema} :
    ofColumns columns = .ok s ↔ s.columns = columns := by
  rw [← @build_eq_ok_iff .table columns s, build, mapError_eq_ok_iff]

theorem knownColumn_eq_ok_iff {metadata : OrderedMap String Metadata} {id : String} {c : Column} :
    knownColumn metadata id = .ok c ↔ c.id = id ∧ (id, c.metadata) ∈ metadata.entries := by
  rw [← OrderedMap.get?_eq_some_iff, knownColumn]
  obtain ⟨name, type, displayName⟩ := c
  cases found : metadata.get? id with
  | none => simp
  | some m =>
    obtain ⟨t, shown⟩ := m
    simp [Column.metadata, eq_comm]

/-- A schema is put together again from its ids and what is known of its columns. -/
theorem ofMetadata_ids (s : Schema) :
    ofMetadata s.ids (.ofList (s.columns.map fun c => (c.id, c.metadata))) = .ok s := by
  have apart : ∀ a ∈ s.columns.map (fun c => (c.id, c.metadata)),
      ∀ b ∈ s.columns.map (fun c => (c.id, c.metadata)), a.1 = b.1 → a = b := by
    intro a ha b hb same
    obtain ⟨c, hc, rfl⟩ := List.mem_map.1 ha
    obtain ⟨d, hd, rfl⟩ := List.mem_map.1 hb
    rw [List.inj_on_of_nodup_map s.nodup_ids hc hd same]
  have known : s.ids.mapM (knownColumn (.ofList (s.columns.map fun c => (c.id, c.metadata)))) =
      .ok s.columns := by
    rw [ids, mapM_eq_ok_iff, List.forall₂_map_left_iff, List.forall₂_same]
    intro c hc
    exact knownColumn_eq_ok_iff.2
      ⟨rfl, (OrderedMap.mem_ofList_iff apart).2 (List.mem_map_of_mem hc)⟩
  exact bind_eq_ok_iff.2 ⟨s.columns, known, ofColumns_eq_ok_iff.2 rfl⟩

theorem ofDraft_toJson (buffered : Bool) (s : Schema) :
    Schema.ofDraft buffered (ofJson s.toJson) = .ok s := by
  let metadata : OrderedMap String Metadata := .ofList (s.columns.map fun c => (c.id, c.metadata))
  have known : Draft.mapOf (Metadata.ofDraft buffered)
      (ofJson (.object (metadata.entries.map fun e => (e.1, e.2.toJson)))) = .ok metadata :=
    Draft.mapOf_ofJson fun e _ => Metadata.ofDraft_toJson buffered e.2
  have read : (Fields.must "columns" (Draft.listOf Draft.text) <|
      .must "columnMetadata" (Draft.mapOf (Metadata.ofDraft buffered)) .done).read
        (ofJson s.toJson) = .ok (s.ids, metadata, ()) :=
    Fields.read_of_writes _ (by simp [Fields.names])
      ⟨_, _, rfl, Draft.listOf_strings s.ids, _, _, rfl, known, rfl⟩
  rw [Schema.ofDraft, read]
  exact mapError_eq_ok_iff.2 (ofMetadata_ids s)

end Schema

theorem readIndex?_toString {i : Nat} (fits : i < pow2 64) :
    readIndex? (toString i).toList = some i := by
  rw [Nat.toString_eq_repr, Nat.toList_repr]
  have unsigned : readIndex? (Nat.toDigits 10 i) =
      (readDigits? (Nat.toDigits 10 i)).bind fun n => if n < pow2 64 then some n else none := by
    cases hd : Nat.toDigits 10 i with
    | nil => rfl
    | cons c cs =>
      have digit : c.isDigit = true := isDigit_of_mem_toDigits (n := i) (by simp [hd])
      have plus : c ≠ '+' := by rintro rfl; cases digit
      simp [readIndex?, plus]
  simp [unsigned, readDigits?_toDigits, fits]

/-- The entries come in another order as texts, but they are the same entries. -/
theorem mem_indexTexts_iff {mapping : OrderedMap Nat Renaming} {key : String} {r : Renaming} :
    (key, r) ∈ (indexTexts mapping).entries ↔
      ∃ i, (i, r) ∈ mapping.entries ∧ toString i = key := by
  rw [indexTexts, OrderedMap.mem_ofList_iff]
  · simp
  · intro a ha b hb same
    obtain ⟨e, he, rfl⟩ := List.mem_map.1 ha
    obtain ⟨f, hf, rfl⟩ := List.mem_map.1 hb
    rw [mapping.entries_apart e he f hf (toString_injective same)]

theorem ofIndexTexts_indexTexts {mapping : OrderedMap Nat Renaming}
    (fit : ∀ e ∈ mapping.entries, e.1 < pow2 64) :
    ofIndexTexts (indexTexts mapping) = .ok mapping := by
  let back : List (Nat × Renaming) :=
    (indexTexts mapping).entries.map fun e => (digitsValue e.1.toList, e.2)
  have mem (e : Nat × Renaming) : e ∈ back ↔ e ∈ mapping.entries := by
    constructor
    · intro he
      obtain ⟨⟨key, r⟩, hk, rfl⟩ := List.mem_map.1 he
      obtain ⟨i, hi, rfl⟩ := mem_indexTexts_iff.1 hk
      rwa [digitsValue_toString]
    · intro he
      refine List.mem_map.2 ⟨(toString e.1, e.2), mem_indexTexts_iff.2 ⟨e.1, he, rfl⟩, ?_⟩
      rw [digitsValue_toString]
  have whole : OrderedMap.ofList back = mapping := OrderedMap.eq_of_mem_iff fun e => by
    rw [OrderedMap.mem_ofList_iff, mem]
    exact fun a ha b hb => mapping.entries_apart a ((mem a).1 ha) b ((mem b).1 hb)
  refine bind_eq_ok_iff.2 ⟨back, ?_, congrArg Except.ok whole⟩
  rw [mapM_eq_ok_iff, List.forall₂_map_right_iff, List.forall₂_same]
  rintro ⟨key, r⟩ he
  obtain ⟨i, hi, rfl⟩ := mem_indexTexts_iff.1 he
  simp only [readIndex?_toString (fit _ hi), digitsValue_toString]

/-! ## What a decoded value is encoded to -/

section
variable {levels : Nat} {P : Number → Prop} {d : Draft}

theorem SortKey.within_toJson (k : SortKey) (pos : 0 < levels) :
    (ofJson k.toJson).Within P levels := by
  refine Draft.within_fields.2 ⟨pos, ?_⟩
  simp [Draft.Within, ofJson, Draft.sound, Draft.Numbers]

theorem SortKey.within_of_listOf {keys : List SortKey}
    (h : d.listOf SortKey.ofDraft = .ok keys) (within : d.Within P levels) :
    (ofJson (.array (keys.map SortKey.toJson))).Within P levels :=
  Draft.within_of_listOf h within fun decoded inside =>
    SortKey.within_toJson _ (Fields.pos_of_read decoded inside)

theorem AggregateColumn.within_toJson (a : AggregateColumn) (pos : 0 < levels) :
    (ofJson a.toJson).Within P levels := by
  refine Draft.within_fields.2 ⟨pos, ?_⟩
  simp [Draft.within_string]

theorem Metadata.within_toJson (m : Metadata) (pos : 0 < levels) :
    (ofJson m.toJson).Within P levels := by
  refine Draft.within_fields.2 ⟨pos, ?_⟩
  simp [Draft.within_string, DataType.toJson]

theorem Renaming.within_toJson (r : Renaming) (pos : 0 < levels) :
    (ofJson r.toJson).Within P levels := by
  obtain ⟨id, displayName⟩ := r
  refine Draft.within_fields.2 ⟨pos, ?_⟩
  cases id <;> cases displayName <;> simp [Draft.within_string]

theorem Schema.within_of_ofDraft {s : Schema} {buffered : Bool}
    (h : Schema.ofDraft buffered d = .ok s) (within : d.Within P levels) :
    (ofJson s.toJson).Within P levels := by
  obtain ⟨⟨ids, metadata, ⟨⟩⟩, read, made⟩ := bind_eq_ok_iff.1 h
  obtain ⟨pos, ⟨list, inList, decodedList⟩, ⟨map, inMap, decodedMap⟩, -⟩ :=
    Fields.made_of_read _ read within
  obtain ⟨mapPos, parts⟩ := Draft.made_of_mapOf decodedMap inMap
  obtain ⟨columns, known, built⟩ := bind_eq_ok_iff.1 (mapError_eq_ok_iff.1 made)
  obtain rfl := Schema.ofColumns_eq_ok_iff.1 built
  have each := mapM_eq_ok_iff.1 known
  have same : ids.map id = s.ids := map_eq_map_of_forall₂ each fun id c hc =>
    (knownColumn_eq_ok_iff.1 hc).1.symm
  rw [List.map_id] at same
  refine Draft.within_fields.2 ⟨pos, List.forall_mem_cons.2 ⟨?_,
    List.forall_mem_singleton.2 (Draft.within_fields.2 ⟨mapPos, fun f hf => ?_⟩)⟩⟩
  · exact same ▸ Draft.within_of_listOf_text decodedList inList
  · obtain ⟨e, he, rfl⟩ := List.mem_map.1 hf
    obtain ⟨c, hc, rfl⟩ := List.mem_map.1 (OrderedMap.mem_of_mem_ofList he)
    obtain ⟨id, -, found⟩ := exists_of_mem_right each hc
    obtain ⟨p, inside, decoded⟩ := parts _ (knownColumn_eq_ok_iff.1 found).2
    exact Metadata.within_toJson _ (Fields.pos_of_read decoded inside)

end

/-! ## Numbers -/

section
variable {P : Number → Prop}

theorem SortKey.numbers_toJson (k : SortKey) : (ofJson k.toJson).Numbers P := by
  simp [toJson]

theorem AggregateColumn.numbers_toJson (a : AggregateColumn) : (ofJson a.toJson).Numbers P := by
  simp [toJson]

theorem Renaming.numbers_toJson (r : Renaming) : (ofJson r.toJson).Numbers P := by
  obtain ⟨id, displayName⟩ := r
  cases id <;> cases displayName <;> simp [toJson]

theorem Metadata.numbers_toJson (m : Metadata) : (ofJson m.toJson).Numbers P := by
  simp [toJson, DataType.toJson]

theorem Json.Draft.numbers_strings (values : List String) :
    (ofJson (Json.strings values)).Numbers P := by
  simp [Json.strings]

theorem Schema.numbers_toJson (s : Schema) : (ofJson s.toJson).Numbers P := by
  refine Draft.numbers_ofJson_object.2 (List.forall_mem_cons.2 ⟨Draft.numbers_strings _,
    List.forall_mem_singleton.2 (Draft.numbers_ofJson_object.2 ?_)⟩)
  exact List.forall_mem_map.2 fun e _ => e.2.numbers_toJson

end

end Crosstab
