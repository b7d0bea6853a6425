import Crosstab.Json.Store
import Crosstab.Proofs.Json.Expressions
import Crosstab.Proofs.Json.OpenPaths

/-!
# Saved sessions are read back

What a session saves besides its query: open paths, a pivot specification, a schema, a table. Each
is read back from its own text.
-/

namespace Crosstab

open Json (Draft Fields Number Lists)
open Json.Draft (ofJson)

/-- The text of a value is read as the value. -/
theorem Json.read_render {j : Json} (numbers : (ofJson j).Numbers Number.ReadsBack) :
    Json.read j.render.toList = (ofJson j, []) := by
  rw [render, String.toList_ofList, read_chars numbers]

/-- What is decoded from a value is read from the text of the value. -/
theorem Json.Draft.ofText_of_decode {α : Type} {decode : Draft → Decoded α} {j : Json} {a : α}
    (numbers : (ofJson j).Numbers Number.ReadsBack) (decoded : decode (ofJson j) = .ok a) :
    ofText decode j.render = .ok a := by
  simp only [ofText, Json.read_render numbers, decoded]
  rfl

/-! ## Open paths -/

namespace OpenPaths

theorem ofText_toJson (p : OpenPaths) (deep : 2 * p.forest.height ≤ nestingLimit) :
    ofText p.toJson.render = .ok p :=
  Json.Draft.ofText_of_decode p.numbers_toJson (p.ofDraft_toJson (by decide) deep)

/-- What a text gives was read from the entries that it lists. -/
theorem readFrom_of_ofText {text : String} {p : OpenPaths} (h : ofText text = .ok p) :
    ReadFrom nestingLimit (some (Json.read text.toList).1) p := by
  simp only [ofText, Draft.ofText] at h
  obtain ⟨value, decoded, made⟩ := bind_eq_ok_iff.1 h
  split at made
  · cases made
    exact readFrom_of_ofDraft decoded
  · cases made

end OpenPaths

/-! ## Pivot specifications -/

namespace PivotSpec

theorem ofDraft_toJson (spec : PivotSpec) : ofDraft (ofJson spec.toJson) = .ok spec := by
  have keys : Draft.listOf SortKey.ofDraft (ofJson (.array (spec.sortKey.map SortKey.toJson))) =
      .ok spec.sortKey := Draft.listOf_ofJson fun k _ => k.ofDraft_toJson
  have overrides : Draft.mapOf (Draft.named false Aggregate.ofTag?) (ofJson (.object
      (spec.aggregations.entries.map fun e => (e.1, .string e.2.tag)))) = .ok spec.aggregations := by
    refine @Draft.mapOf_ofJson _ (fun func : Aggregate => .string func.tag) _ _ ?_
    rintro ⟨name, func⟩ -
    cases func <;> rfl
  refine bind_eq_ok_iff.2 ⟨(spec.pivotColumns, spec.leafColumn, spec.showRoot, spec.showLeafRows,
    spec.sortKey, spec.aggregations, ()), ?_, rfl⟩
  apply Fields.read_of_writes
  · decide
  · exact .inr ⟨_, _, rfl, Draft.listOf_strings _, .inr ⟨_, _, rfl, Draft.optional_orNull _,
      .inr ⟨_, _, rfl, rfl, .inr ⟨_, _, rfl, rfl, .inr ⟨_, _, rfl, keys,
        .inr ⟨_, _, rfl, overrides, rfl⟩⟩⟩⟩⟩⟩

theorem numbers_toJson {P : Number → Prop} (spec : PivotSpec) : (ofJson spec.toJson).Numbers P := by
  have leaf : (ofJson (Json.orNull .string spec.leafColumn)).Numbers P := by
    cases spec.leafColumn <;> trivial
  have overrides : (ofJson (.object
      (spec.aggregations.entries.map fun e => (e.1, .string e.2.tag)))).Numbers P :=
    Draft.numbers_ofJson_object.2 (List.forall_mem_map.2 fun _ _ => trivial)
  rw [toJson, Draft.numbers_ofJson_object]
  simp only [List.forall_mem_cons, Draft.numbers_strings, leaf, overrides, true_and]
  simp [SortKey.numbers_toJson]

theorem ofText_toJson (spec : PivotSpec) : ofText spec.toJson.render = .ok spec :=
  Json.Draft.ofText_of_decode spec.numbers_toJson spec.ofDraft_toJson

end PivotSpec

theorem Schema.ofText_toJson (s : Schema) :
    Draft.ofText (Schema.ofDraft false) s.toJson.render = .ok s :=
  Json.Draft.ofText_of_decode s.numbers_toJson (s.ofDraft_toJson false)

/-! ## Tables -/

theorem Scalar.numbers_toJson {P : Number → Prop} (ints : ∀ i : Int64, P (.int i.toInt))
    (v : Scalar) : (ofJson v.toJson).Numbers P ↔ ∀ r ∈ v.reals, P (.real r) := by
  cases v <;> simp [Scalar.toJson, Scalar.reals, ofJson, Draft.Numbers, ints]

namespace Table

def reals (t : Table) : List Double := t.rows.flatMap fun row => row.flatMap Scalar.reals

theorem ofDraft_toJson (t : Table) : ofDraft (ofJson t.toJson) = .ok t := by
  have row (values : List Scalar) : Draft.listOf Scalar.ofDraft
      (ofJson (.array (values.map Scalar.toJson))) = .ok values :=
    Draft.listOf_ofJson fun v _ => v.ofDraft_toJson
  have rows : Draft.listOf (Draft.listOf Scalar.ofDraft) (ofJson (.array
      (t.rows.map fun row => .array (row.map Scalar.toJson)))) = .ok t.rows :=
    Draft.listOf_ofJson fun values _ => row values
  refine bind_eq_ok_iff.2 ⟨(t.schema, t.rows, ()), ?_, rfl⟩
  apply Fields.read_of_writes
  · decide
  · exact ⟨_, _, rfl, t.schema.ofDraft_toJson false, _, _, rfl, rows, rfl⟩

theorem numbers_toJson {P : Number → Prop} (ints : ∀ i : Int64, P (.int i.toInt)) {t : Table}
    (reals : ∀ v ∈ t.reals, P (.real v)) : (ofJson t.toJson).Numbers P := by
  have cells : ∀ row ∈ t.rows, ∀ v ∈ row, (ofJson v.toJson).Numbers P := by
    intro row hr v hv
    rw [Scalar.numbers_toJson ints]
    intro r mem
    exact reals r (List.mem_flatMap.2 ⟨row, hr, List.mem_flatMap.2 ⟨v, hv, mem⟩⟩)
  rw [toJson, Draft.numbers_ofJson_object]
  simpa [Schema.numbers_toJson] using cells

theorem ofText_toJson {t : Table} (reads : ∀ v ∈ t.reals, Json.RealReadsBack v) :
    ofText t.toJson.render = .ok t :=
  Json.Draft.ofText_of_decode (numbers_toJson whole_toInt reads) t.ofDraft_toJson

end Table

/-- Open paths with at most sixty-three levels, every pivot specification, every schema and every
table with finite reals are read back from their texts as they were; of the reals of the table it is
assumed that a finite one is read back from its text.

Whatever list of entries a text gives open paths by, they are what the entries stand for: on every
level one node for each key, with what is below the last entry of that key. Their own text lists its
entries in order, those of the null groups first and the others by the bytes of their keys, stands
for the same open paths and is read back as them. -/
theorem sessions_readBack :
    (∀ p : OpenPaths, p.forest.height ≤ 63 → OpenPaths.ofText p.toJson.render = .ok p) ∧
    (∀ spec : PivotSpec, PivotSpec.ofText spec.toJson.render = .ok spec) ∧
    (∀ s : Schema, Draft.ofText (Schema.ofDraft false) s.toJson.render = .ok s) ∧
    (∀ t : Table, (∀ v ∈ t.reals, v.isFinite = true) →
      (∀ v ∈ t.reals, v.isFinite = true → Json.RealReadsBack v) →
      Table.ofText t.toJson.render = .ok t) ∧
    ∀ (text : String) (p : OpenPaths), OpenPaths.ofText text = .ok p →
      (∃ entries, Lists (some (Json.read text.toList).1) entries ∧ p.StandsFor entries) ∧
      (∃ entries, Lists (some (Json.read p.toJson.render.toList).1) entries ∧
        Entry.Ordered entries ∧ p.StandsFor entries) ∧
      OpenPaths.ofText p.toJson.render = .ok p := by
  refine ⟨?_, PivotSpec.ofText_toJson, Schema.ofText_toJson, ?_, ?_⟩
  · intro p low
    apply p.ofText_toJson
    show 2 * p.forest.height ≤ 127
    omega
  · intro t finite reads
    exact Table.ofText_toJson fun v mem => reads v mem (finite v mem)
  · intro text p read
    obtain ⟨entries, listed, stands, deep⟩ := OpenPaths.readFrom_of_ofText read
    have again := p.ofText_toJson deep
    obtain ⟨own, ownListed, ownStands, -⟩ := OpenPaths.readFrom_of_ofText again
    have nodes : Lists (some (Json.read p.toJson.render.toList).1) p.forest.entries := by
      rw [Json.read_render p.numbers_toJson]
      exact p.lists_toJson
    obtain rfl := ownListed.unique nodes
    exact ⟨⟨entries, listed, stands⟩, ⟨_, nodes, Forest.ordered_entries p.sorted, ownStands⟩, again⟩

/-- Entries out of order, one without a value and one key twice: what is below its first entry does
not count. -/
def northTwice : Json :=
  .array [
    .object [("children", .array [.object [("value", .string "7")]]), ("value", .string "north")],
    .object [("children", .array [])],
    .array [.string "north"],
    .array [.string "9", .array [.array [.string "north", .array []]]]]

def northOnce : Forest :=
  .node none .leaf (.node (some "9") (.node (some "north") .leaf .leaf)
    (.node (some "north") .leaf .leaf))

def soundings : Table where
  schema := ⟨[.named "depth" .real, .named "place" .text], by decide, by decide⟩
  rows := [[.real (.ofRatio false 1 2), .text "quay"], [.null], [.int 3, .bool true, .text ""]]

theorem realReadsBack_half : Json.RealReadsBack (.ofRatio false 1 2) := by
  have text : Json.realChars (.ofRatio false 1 2) = ['0', '.', '5'] := by decide +kernel
  have numeral : Json.readNumeral ['0', '.', '5'] =
      some (⟨false, ['0'], some ['5'], none⟩, []) := rfl
  have scaled : Number.scale 5 (-1) = some (.ofRatio false 1 2) := by decide +kernel
  rw [Json.RealReadsBack, text, Json.readNumber, numeral]
  simp [Number.ofNumeral, Number.realOf, Number.collect, pow2, scaled]

theorem sessions_readBack_soundings :
    ((∀ v ∈ soundings.reals, v.isFinite = true) ∧
      (∀ v ∈ soundings.reals, v.isFinite = true → Json.RealReadsBack v) ∧
      Table.ofText soundings.toJson.render = .ok soundings) ∧
    ∃ p, OpenPaths.ofText northTwice.render = .ok p ∧ p.forest = northOnce ∧
      (∃ entries, Lists (some (Json.read p.toJson.render.toList).1) entries ∧
        Entry.Ordered entries ∧ p.StandsFor entries) ∧
      p.forest.height ≤ 63 ∧ OpenPaths.ofText p.toJson.render = .ok p := by
  obtain ⟨paths, -, -, tables, texts⟩ := sessions_readBack
  have reals : soundings.reals = [.ofRatio false 1 2] := rfl
  have finite : ∀ v ∈ soundings.reals, v.isFinite = true := by
    rw [reals]
    decide
  have reads : ∀ v ∈ soundings.reals, v.isFinite = true → Json.RealReadsBack v := by
    rw [reals]
    exact fun v mem _ => List.mem_singleton.1 mem ▸ realReadsBack_half
  have shown : (OpenPaths.ofDraft nestingLimit (ofJson northTwice)).toOption.map (·.forest) =
      some northOnce := by decide +kernel
  cases decoded : OpenPaths.ofDraft nestingLimit (ofJson northTwice) with
  | error e =>
    rw [decoded] at shown
    cases shown
  | ok p =>
    rw [decoded] at shown
    have forest : p.forest = northOnce := Option.some.inj shown
    have read : OpenPaths.ofText northTwice.render = .ok p :=
      Json.Draft.ofText_of_decode (by simp [northTwice]) decoded
    have low : p.forest.height ≤ 63 := by
      rw [forest]
      decide
    obtain ⟨-, ordered, -⟩ := texts _ p read
    exact ⟨⟨finite, reads, tables soundings finite reads⟩, p, read, forest, ordered, low,
      paths p low⟩

end Crosstab
