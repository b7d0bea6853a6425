import Crosstab.Proofs.Json.Records

namespace Crosstab.Json

namespace Draft

/-- The first value of a name. -/
def lookup (entries : List (Option String × Draft)) (name : String) : Option Draft :=
  (entries.find? (·.1 = some name)).map (·.2)

/-- The items of an array under the names that they stand for. -/
def underNames (names : List String) (items : List Draft) : List (Option String × Draft) :=
  (names.zip items).map fun e => (some e.1, e.2)

/-- What a draft gives for a field of a record with the fields of the names. -/
def field? (names : List String) (name : String) : Draft → Option Draft
  | object entries => lookup entries name
  | array items => lookup (underNames names items) name
  | _ => none

theorem lookup_cons (first name : String) (d : Draft) (entries : List (Option String × Draft)) :
    lookup ((some first, d) :: entries) name =
      (if first = name then some d else none).or (lookup entries name) := by
  by_cases here : first = name
  · rw [if_pos here, lookup, List.find?_cons_of_pos (by simpa using here)]
    rfl
  · rw [if_neg here, lookup, List.find?_cons_of_neg (by simpa using here)]
    rfl

end Draft

namespace Fields

open Draft

variable {σ τ : Type} {look other : String → Option Draft}

/-- What is known of a record was decoded from what was looked up. -/
def Tracks (look : String → Option Draft) {σ τ : Type} : Fields σ τ → σ → Prop
  | done, _ => True
  | must name decode rest, (a, known) =>
    Option.Rel (fun d x => decode d = .ok x) (look name) a ∧ rest.Tracks look known
  | may name decode _ rest, (a, known) =>
    Option.Rel (fun d x => decode d = .ok x) (look name) a ∧ rest.Tracks look known
  | nullable name decode rest, (a, known) =>
    Option.Rel (fun d x => optional decode d = .ok x) (look name) a ∧ rest.Tracks look known

/-- The fields of a record were decoded from what was looked up; where nothing was found they have
their defaults. -/
def Found (look : String → Option Draft) {σ τ : Type} : Fields σ τ → τ → Prop
  | done, _ => True
  | must name decode rest, (x, record) =>
    (∃ d, look name = some d ∧ decode d = .ok x) ∧ rest.Found look record
  | may name decode default rest, (x, record) =>
    (look name = none ∧ x = default ∨ ∃ d, look name = some d ∧ decode d = .ok x) ∧
      rest.Found look record
  | nullable name decode rest, (x, record) =>
    (look name = none ∧ x = none ∨ ∃ d, look name = some d ∧ optional decode d = .ok x) ∧
      rest.Found look record

theorem tracks_start (fields : Fields σ τ) : fields.Tracks (fun _ => none) fields.start := by
  induction fields with
  | done => trivial
  | must _ _ _ ih | may _ _ _ _ ih | nullable _ _ _ ih => exact ⟨.none, ih⟩

/-- Only what is looked up for the names of the fields matters. -/
theorem tracks_congr (fields : Fields σ τ) {known : σ} (h : fields.Tracks look known)
    (same : ∀ name ∈ fields.names, other name = look name) : fields.Tracks other known := by
  induction fields with
  | done => trivial
  | must _ _ _ ih | may _ _ _ _ ih | nullable _ _ _ ih =>
    obtain ⟨first, rest⟩ := List.forall_mem_cons.1 same
    exact ⟨first.symm ▸ h.1, ih h.2 rest⟩

/-- A value for a field that may only have one is the first that is found. -/
theorem rel_once {α : Type} {decode : Draft → Decoded α} {d : Draft} {found : Option Draft}
    {a b : Option α} (h : once decode d a = .ok b)
    (before : Option.Rel (fun d x => decode d = .ok x) found a) :
    Option.Rel (fun d x => decode d = .ok x) (found.or (some d)) b := by
  cases before with
  | some _ => cases h
  | none =>
    obtain ⟨x, hx, rfl⟩ := map_eq_ok_iff.1 h
    exact .some hx

/-- What is looked up after one more value. -/
def after (look : String → Option Draft) (name : String) (d : Draft) (n : String) : Option Draft :=
  (look n).or (if name = n then some d else none)

theorem after_of_ne {name n : String} (d : Draft) (ne : name ≠ n) : after look name d n = look n := by
  rw [after, if_neg ne, Option.or_none]

theorem tracks_set (fields : Fields σ τ) (distinct : fields.names.Nodup) {name : String} {d : Draft}
    {known next : σ} (h : fields.set name d known = .ok next) (before : fields.Tracks look known) :
    fields.Tracks (after look name d) next := by
  induction fields with
  | done => trivial
  | must n decode rest ih | may n decode default rest ih | nullable n decode rest ih =>
    obtain ⟨new, apart⟩ := List.nodup_cons.1 distinct
    obtain ⟨a, known⟩ := known
    rw [set] at h
    split at h
    · next here =>
      subst here
      obtain ⟨b, hb, rfl⟩ := map_eq_ok_iff.1 h
      refine ⟨?_, rest.tracks_congr before.2 fun n hn => after_of_ne d fun same => new (same ▸ hn)⟩
      rw [after, if_pos rfl]
      exact rel_once hb before.1
    · next ne =>
      obtain ⟨known, hk, rfl⟩ := map_eq_ok_iff.1 h
      refine ⟨?_, ih apart hk before.2⟩
      rw [after_of_ne d ne]
      exact before.1

theorem tracks_readObject (fields : Fields σ τ) (distinct : fields.names.Nodup)
    {entries : List (Option String × Draft)} {known next : σ}
    (h : fields.readObject entries known = .ok next) (before : fields.Tracks look known) :
    fields.Tracks (fun name => (look name).or (lookup entries name)) next := by
  induction entries generalizing known look with
  | nil =>
    cases h
    exact fields.tracks_congr before fun name _ => Option.or_none
  | cons e entries ih =>
    obtain ⟨name, d⟩ := e
    cases name with
    | none => cases h
    | some name =>
      obtain ⟨middle, hm, hn⟩ := bind_eq_ok_iff.1 h
      refine fields.tracks_congr (ih hn (fields.tracks_set distinct hm before)) fun n _ => ?_
      rw [lookup_cons, after, Option.or_assoc]

/-- The items of an array are read as the fields whose names they stand for. -/
theorem readObject_of_readArray (fields : Fields σ τ) {names : List String} {items : List Draft}
    {known next : σ} (h : fields.readArray names items known = .ok next) :
    fields.readObject (underNames names items) known = .ok next := by
  induction items generalizing names known with
  | nil => cases names <;> exact h
  | cons d items ih =>
    cases names with
    | nil => cases h
    | cons name names =>
      obtain ⟨middle, hm, hn⟩ := bind_eq_ok_iff.1 h
      exact bind_eq_ok_iff.2 ⟨middle, hm, ih hn⟩

theorem found_finish (fields : Fields σ τ) {known : σ} {record : τ}
    (h : fields.finish known = .ok record) (all : fields.Tracks look known) :
    fields.Found look record := by
  induction fields with
  | done => trivial
  | must n decode rest ih =>
    obtain ⟨a, known⟩ := known
    obtain ⟨first, others⟩ := all
    cases a with
    | none => cases h
    | some a =>
      obtain ⟨record, hr, rfl⟩ := map_eq_ok_iff.1 h
      refine ⟨?_, ih hr others⟩
      generalize look n = found at first
      cases first with
      | some decoded => exact ⟨_, rfl, decoded⟩
  | may n decode default rest ih | nullable n decode rest ih =>
    obtain ⟨a, known⟩ := known
    obtain ⟨first, others⟩ := all
    obtain ⟨record, hr, rfl⟩ := map_eq_ok_iff.1 h
    refine ⟨?_, ih hr others⟩
    generalize look n = found at first
    cases first with
    | none => exact .inl ⟨rfl, rfl⟩
    | some decoded => exact .inr ⟨_, rfl, decoded⟩

/-- The fields of a record are what its draft gives for their names. -/
theorem found_of_read (fields : Fields σ τ) (distinct : fields.names.Nodup) {d : Draft} {record : τ}
    (h : fields.read d = .ok record) :
    fields.Found (fun name => d.field? fields.names name) record := by
  have object {entries : List (Option String × Draft)} {known : σ}
      (read : fields.readObject entries fields.start = .ok known)
      (finished : fields.finish known = .ok record) : fields.Found (lookup entries) record :=
    fields.found_finish finished (fields.tracks_readObject distinct read fields.tracks_start)
  match d with
  | .object entries =>
    obtain ⟨known, read, finished⟩ := bind_eq_ok_iff.1 h
    exact object read finished
  | .array items =>
    obtain ⟨known, read, finished⟩ := bind_eq_ok_iff.1 h
    split at finished
    · cases finished
    · exact object (fields.readObject_of_readArray read) finished
  | .null | .bool _ | .number _ | .string _ | .fault => cases h

end Fields

end Crosstab.Json
