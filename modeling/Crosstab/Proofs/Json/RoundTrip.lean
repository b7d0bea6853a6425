import Crosstab.Proofs.Json.Bounds
import Crosstab.Query.Plan

/-!
# Queries read back from their JSON text

A query is what its own text is read as, if its real constants are finite and the text does not
nest too deep; and so is every query that was read from a text.
-/

namespace Crosstab

open Json (Draft Fields Number)
open Json.Draft (ofJson)

/-! ## Equality -/

theorem Double.numEq_self {v : Double} (h : v.isFinite = true) : v.numEq v = true := by
  cases v with
  | finite => simp [numEq]
  | nan | infinity => cases h

theorem Scalar.equals_self {value : Scalar} (finite : ∀ v ∈ value.reals, v.isFinite = true) :
    value.equals value = true := by
  cases value with
  | real v => exact Double.numEq_self (finite v (List.mem_singleton_self v))
  | null | bool | int | text => simp [equals]

mutual

theorem Expr.equals_self : ∀ e : Expr, (∀ v ∈ e.reals, v.isFinite = true) → e.equals e = true
  | .column _, _ => by simp [equals]
  | .const value _, finite => by simpa [equals] using Scalar.equals_self finite
  | .combine _ operands, finite => by simpa [equals] using Expr.equalsList_self operands finite
  | .rowNumber _, _ => by simp [equals]

theorem Expr.equalsList_self : ∀ es : List Expr, (∀ v ∈ Expr.realsOf es, v.isFinite = true) →
    Expr.equalsList es es = true
  | [], _ => rfl
  | e :: es, finite => by
    obtain ⟨first, others⟩ := List.forall_mem_append.1 finite
    simp [equalsList, Expr.equals_self e first, Expr.equalsList_self es others]

end

namespace Plan

variable {s : Schema}

/-- A plan equals itself if no real in it differs from itself. -/
theorem equals_self (p : Plan s) (finite : ∀ v ∈ p.reals, v.isFinite = true) :
    p.equals p = true := by
  induction p with
  | table => simp [equals, headEquals]
  | project _ _ _ ih | groupBy _ _ _ _ ih | sort _ _ _ ih | mapColumns _ _ _ ih
  | mapColumnsAt _ _ _ ih => simp [equals, headEquals, ih finite]
  | filter source predicate _ ih =>
    obtain ⟨below, here⟩ := List.forall_mem_append.1 finite
    simp [equals, headEquals, ih below, predicate.equals_self here]
  | extend source column type value _ ih =>
    obtain ⟨below, here⟩ := List.forall_mem_append.1 finite
    simp [equals, headEquals, ih below, value.equals_self here]
  | concat left right _ ihl ihr =>
    obtain ⟨first, second⟩ := List.forall_mem_append.1 finite
    simp [equals, ihl first, ihr second]
  | join left right keys kind nullSafe _ ihl ihr =>
    obtain ⟨first, second⟩ := List.forall_mem_append.1 finite
    simp [equals, headEquals, ihl first, ihr second]

end Plan

/-! ## The text of a query -/

namespace Query

/-- A query that is decoded from what it is encoded to is read back from its text, if the numbers in
it are. -/
theorem ofText_of_ofDraft {q : Query} (numbers : (ofJson q.toJson).Numbers Number.ReadsBack)
    (deep : q.toJson.depth ≤ nestingLimit)
    (decoded : ofDraft nestingLimit false (ofJson q.toJson) = .ok q) :
    ofText q.toJson.render = .ok q := by
  have sound : (ofJson q.toJson).sound nestingLimit = true := (Json.sound_ofJson _ _).2 deep
  have read : Json.read q.toJson.render.toList = (ofJson q.toJson, []) := by
    rw [Json.render, String.toList_ofList, Json.read_chars numbers]
  simp only [ofText, Draft.ofText, read, if_pos sound]
  exact bind_eq_ok_iff.2 ⟨q, decoded, rfl⟩

/-- What a text gives when it is read as a query. -/
theorem exists_draft_of_ofText {t : String} {q : Query} (h : ofText t = .ok q) :
    ∃ d : Draft, d.Within Number.Plain nestingLimit ∧ ofDraft nestingLimit false d = .ok q := by
  have plain := Json.plain_read t.toList
  simp only [ofText, Draft.ofText] at h
  generalize Json.read t.toList = result at h plain
  obtain ⟨d, rest⟩ := result
  obtain ⟨r, decoded, made⟩ := bind_eq_ok_iff.1 h
  split at decoded
  · next sound =>
    split at made
    · cases made
      exact ⟨d, ⟨sound, plain⟩, decoded⟩
    · cases made
  · cases decoded

/-- A query whose real constants are finite and have a text that is read back as the same real is
the query that its own text is read as. It is the same query, so every schema in it is the same, and
so are its text and its SQL. The positions in it have 64 bits.

A text only gives queries with finite constants, and its depth bounds the depth of the query that it
gives; so every query that a text gives is read back. -/
theorem ofText_render (q : Query)
    (reads : ∀ v ∈ q.plan.reals, v.isFinite = true → Json.RealReadsBack v) :
    ((∀ v ∈ q.plan.reals, v.isFinite = true) → (∀ i ∈ q.plan.positions, i < pow2 64) →
      q.toJson.depth ≤ nestingLimit → ofText q.toJson.render = .ok q ∧ q.equals q = true) ∧
    ∀ t, ofText t = .ok q → ofText q.toJson.render = .ok q ∧ q.equals q = true := by
  have known (finite : ∀ v ∈ q.plan.reals, v.isFinite = true)
      (fit : ∀ i ∈ q.plan.positions, i < pow2 64) (deep : q.toJson.depth ≤ nestingLimit) :
      ofText q.toJson.render = .ok q ∧ q.equals q = true := by
    have numbers : (ofJson q.toJson).Numbers Number.ReadsBack :=
      (q.plan.numbers_toJson whole_toInt).2 fun v hv => reads v hv (finite v hv)
    have decoded := q.plan.ofDraft_toJson false deep (Nat.le_refl _) fit
    exact ⟨ofText_of_ofDraft numbers deep decoded, q.plan.equals_self finite⟩
  refine ⟨known, fun t ht => ?_⟩
  obtain ⟨d, within, decoded⟩ := exists_draft_of_ofText ht
  obtain ⟨⟨sound, numbers⟩, fit⟩ := portable_of_ofDraft decoded within
  have finite := (q.plan.numbers_toJson whole_toInt).1 numbers
  exact known finite fit ((Json.sound_ofJson _ _).1 sound)

/-- Readings of eleven sensors above two and a half. Two positions have another order as texts, and
a name has a quote and a line break. -/
def highReadings : Except Error Query := do
  let columns := (List.range 11).map fun i => Column.named ("c" ++ toString i) .real
  let schema ← (Schema.ofColumns columns).mapError .schema
  let readings ← (table "all \"readings\"\n" schema).mapError .build
  let mapping : OrderedMap Nat Renaming :=
    ⟨[(2, ⟨some "low", none⟩), (10, ⟨some "high", some "High"⟩)], by decide⟩
  let named ← (readings.mapColumnsAt mapping).mapError .build
  named.filter (.combine .gt [.column "high", .const (.real (.ofRatio false 5 2)) .real])

theorem ofText_render_highReadings : ∃ q, highReadings = .ok q ∧
    q.plan.reals = [.ofRatio false 5 2] ∧ q.plan.positions = [2, 10] ∧
      q.toJson.depth ≤ nestingLimit ∧
      (ofText q.toJson.render = .ok q ∧ q.equals q = true) ∧
      ∃ t, ofText t = .ok q ∧ ofText q.toJson.render = .ok q ∧ q.equals q = true := by
  obtain ⟨q, hq⟩ : ∃ q, highReadings = .ok q := ⟨_, rfl⟩
  have shown : highReadings.toOption.map
      (fun q => (q.plan.reals, q.plan.positions, decide (q.toJson.depth ≤ nestingLimit))) =
        some ([.ofRatio false 5 2], [2, 10], true) := by
    decide +kernel
  rw [hq] at shown
  obtain ⟨reals, positions, deep⟩ : q.plan.reals = [.ofRatio false 5 2] ∧
      q.plan.positions = [2, 10] ∧ q.toJson.depth ≤ nestingLimit := by
    simpa [Except.toOption] using shown
  have read : Json.RealReadsBack (.ofRatio false 5 2) := by
    have text : Json.realChars (.ofRatio false 5 2) = ['2', '.', '5'] := by decide +kernel
    have numeral : Json.readNumeral ['2', '.', '5'] =
        some (⟨false, ['2'], some ['5'], none⟩, []) := rfl
    have scaled : Number.scale 25 (-1) = some (.ofRatio false 5 2) := by decide +kernel
    rw [Json.RealReadsBack, text, Json.readNumber, numeral]
    simp [Number.ofNumeral, Number.realOf, Number.collect, pow2, scaled]
  have finite : ∀ v ∈ q.plan.reals, v.isFinite = true := by
    rw [reals]
    decide +kernel
  have reads : ∀ v ∈ q.plan.reals, v.isFinite = true → Json.RealReadsBack v := by
    rw [reals]
    exact fun v hv _ => List.mem_singleton.1 hv ▸ read
  have fit : ∀ i ∈ q.plan.positions, i < pow2 64 := by
    rw [positions]
    decide
  have back := (ofText_render q reads).1 finite fit deep
  exact ⟨q, hq, reals, positions, deep, back, _, back.1, (ofText_render q reads).2 _ back.1⟩

end Query

end Crosstab
