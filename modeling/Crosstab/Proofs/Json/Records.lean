import Crosstab.Json.Query
import Crosstab.Proofs.Json.Values
import Crosstab.Proofs.Maps
import Crosstab.Proofs.Outcome

/-!
# Lists, maps and records decoded from drafts

Both directions, for whatever the parts are: what is decoded from a value that was encoded, and
where the parts of something come from that was decoded.

* `Draft.listOf_ofJson` and `Draft.mapOf_ofJson` decode what was encoded;
* `Fields.Made` says that every field of a record was decoded from a draft with a property, or is a
  default; `Fields.made_of_read` finds it for a record that was read.
-/

namespace Crosstab.Json

variable {P : Number → Prop} {levels : Nat}

namespace Draft

section
variable {α : Type} {encode : α → Json} {decode : Draft → Decoded α}

theorem listOf_ofJson {values : List α} (each : ∀ a ∈ values, decode (ofJson (encode a)) = .ok a) :
    listOf decode (ofJson (.array (values.map encode))) = .ok values := by
  rw [ofJson, ofJsons_eq_map, listOf, List.map_map, mapM_eq_ok_iff, List.forall₂_map_left_iff,
    List.forall₂_same]
  exact each

theorem mapOf_ofJson {m : OrderedMap String α}
    (each : ∀ e ∈ m.entries, decode (ofJson (encode e.2)) = .ok e.2) :
    mapOf decode (ofJson (.object (m.entries.map fun e => (e.1, encode e.2)))) = .ok m := by
  have entries : ((m.entries.map fun e => (e.1, encode e.2)).map
      fun f => (some f.1, ofJson f.2)).mapM (entry decode) = .ok m.entries := by
    rw [List.map_map, mapM_eq_ok_iff, List.forall₂_map_left_iff, List.forall₂_same]
    intro e he
    simp [entry, each e he, Except.map]
  rw [ofJson, ofEntries_eq_map, mapOf, entries, Except.map, OrderedMap.ofList_entries]

/-- A list is encoded within the bounds of the draft it was decoded from, if its items are. -/
theorem within_of_listOf {d : Draft} {values : List α} (h : d.listOf decode = .ok values)
    (within : d.Within P levels)
    (each : ∀ {p : Draft} {a : α}, decode p = .ok a → p.Within P (levels - 1) →
      (ofJson (encode a)).Within P (levels - 1)) :
    (ofJson (.array (values.map encode))).Within P levels := by
  match d with
  | array items =>
    obtain ⟨pos, parts⟩ := within_array.1 within
    refine within_items.2 ⟨pos, List.forall_mem_map.2 fun a ha => ?_⟩
    obtain ⟨p, hp, decoded⟩ := exists_of_mem_right (mapM_eq_ok_iff.1 h) ha
    exact each decoded (parts p hp)
  | null | bool _ | number _ | string _ | object _ | fault => cases h

/-- Every value of a map was decoded from a part of the draft. -/
theorem made_of_mapOf {d : Draft} {m : OrderedMap String α} (h : d.mapOf decode = .ok m)
    (within : d.Within P levels) :
    0 < levels ∧
      ∀ e ∈ m.entries, ∃ p : Draft, p.Within P (levels - 1) ∧ decode p = .ok e.2 := by
  match d with
  | object fields =>
    obtain ⟨pos, parts⟩ := within_object.1 within
    obtain ⟨entries, decoded, rfl⟩ := map_eq_ok_iff.1 h
    refine ⟨pos, fun e he => ?_⟩
    obtain ⟨⟨name, p⟩, hp, made⟩ :=
      exists_of_mem_right (mapM_eq_ok_iff.1 decoded) (OrderedMap.mem_of_mem_ofList he)
    obtain ⟨-, inside⟩ := parts _ hp
    cases name with
    | none => cases made
    | some name =>
      obtain ⟨a, ha, rfl⟩ := map_eq_ok_iff.1 made
      exact ⟨p, inside, ha⟩
  | null | bool _ | number _ | string _ | array _ | fault => cases h

theorem within_of_mapOf {d : Draft} {m : OrderedMap String α} (h : d.mapOf decode = .ok m)
    (within : d.Within P levels)
    (each : ∀ {p : Draft} {a : α}, decode p = .ok a → p.Within P (levels - 1) →
      (ofJson (encode a)).Within P (levels - 1)) :
    (ofJson (.object (m.entries.map fun e => (e.1, encode e.2)))).Within P levels := by
  obtain ⟨pos, parts⟩ := made_of_mapOf h within
  refine within_fields.2 ⟨pos, List.forall_mem_map.2 fun e he => ?_⟩
  obtain ⟨p, hp, decoded⟩ := parts e he
  exact each decoded hp

theorem within_of_listOf_text {d : Draft} {values : List String}
    (h : d.listOf text = .ok values) (within : d.Within P levels) :
    (ofJson (Json.strings values)).Within P levels :=
  within_of_listOf h within fun _ _ => within_string _

end

/-- A tagged object is taken apart into its variant and the fields after the tag. -/
theorem tagged_ofJson {α : Type} {all : List α} {tagOf : α → String} {a : α}
    (found : all.find? (tagOf · == tagOf a) = some a) (buffered : Bool) {tagName : String}
    {entries : List (String × Json)} (others : ∀ e ∈ entries, e.1 ≠ tagName) :
    (ofJson (.object ((tagName, .string (tagOf a)) :: entries))).tagged buffered tagName all tagOf =
      .ok (a, ofJson (.object entries)) := by
  have none : (ofEntries entries).filter (·.1 == some tagName) = [] := by
    rw [ofEntries_eq_map, List.filter_eq_nil_iff]
    intro f hf
    obtain ⟨e, he, rfl⟩ := List.mem_map.1 hf
    simpa using others e he
  have rest : (ofEntries entries).filter (·.1 != some tagName) = ofEntries entries := by
    rw [ofEntries_eq_map, List.filter_eq_self]
    intro f hf
    obtain ⟨e, he, rfl⟩ := List.mem_map.1 hf
    simpa using others e he
  simp [ofJson, ofEntries, tagged, none, rest, variant, found, bind, Except.bind, pure, Except.pure]

/-- The fields beside the tag are parts of the same draft. -/
theorem within_of_tagged {α : Type} {buffered : Bool} {tagName : String} {all : List α}
    {tagOf : α → String} {d rest : Draft} {a : α}
    (h : d.tagged buffered tagName all tagOf = .ok (a, rest)) (within : d.Within P levels) :
    rest.Within P levels := by
  match d with
  | object fields =>
    obtain ⟨pos, parts⟩ := within_object.1 within
    simp only [tagged] at h
    split at h
    · obtain ⟨a, -, made⟩ := bind_eq_ok_iff.1 h
      cases made
      exact within_object.2 ⟨pos, fun f hf => parts f (List.mem_of_mem_filter hf)⟩
    · cases h
  | array (first :: items) =>
    obtain ⟨pos, parts⟩ := within_array.1 within
    obtain ⟨a, -, made⟩ := bind_eq_ok_iff.1 h
    cases made
    exact within_array.2 ⟨pos, fun p hp => parts p (List.mem_cons_of_mem _ hp)⟩
  | array [] | null | bool _ | number _ | string _ | fault => cases h

end Draft

namespace Fields

open Draft

/-- What is known of a record was decoded from drafts with a property. -/
def Known (D : Draft → Prop) {σ τ : Type} : Fields σ τ → σ → Prop
  | done, _ => True
  | must _ decode rest, (a, known) => (∀ x ∈ a, ∃ d, D d ∧ decode d = .ok x) ∧ rest.Known D known
  | may _ decode _ rest, (a, known) => (∀ x ∈ a, ∃ d, D d ∧ decode d = .ok x) ∧ rest.Known D known
  | nullable _ decode rest, (a, known) =>
    (∀ x ∈ a, ∃ d, D d ∧ optional decode d = .ok x) ∧ rest.Known D known

/-- The fields of a record were decoded from drafts with a property, or are defaults. -/
def Made (D : Draft → Prop) {σ τ : Type} : Fields σ τ → τ → Prop
  | done, _ => True
  | must _ decode rest, (x, record) => (∃ d, D d ∧ decode d = .ok x) ∧ rest.Made D record
  | may _ decode default rest, (x, record) =>
    (x = default ∨ ∃ d, D d ∧ decode d = .ok x) ∧ rest.Made D record
  | nullable _ decode rest, (x, record) =>
    (x = none ∨ ∃ d, D d ∧ optional decode d = .ok x) ∧ rest.Made D record

variable {D : Draft → Prop} {σ τ : Type}

/-- The entries are those of the record, in the order of its fields; a default may be left out. -/
def Writes {σ τ : Type} : Fields σ τ → List (String × Json) → τ → Prop
  | done, entries, _ => entries = []
  | must name decode rest, entries, (x, record) => ∃ value others,
    entries = (name, value) :: others ∧ decode (ofJson value) = .ok x ∧ rest.Writes others record
  | may name decode default rest, entries, (x, record) =>
    (x = default ∧ rest.Writes entries record) ∨ ∃ value others,
      entries = (name, value) :: others ∧ decode (ofJson value) = .ok x ∧ rest.Writes others record
  | nullable name decode rest, entries, (x, record) =>
    (x = none ∧ rest.Writes entries record) ∨ ∃ value others,
      entries = (name, value) :: others ∧ optional decode (ofJson value) = .ok x ∧
        rest.Writes others record

theorem mem_names_of_writes (fields : Fields σ τ) {entries : List (String × Json)} {record : τ}
    (h : fields.Writes entries record) : ∀ e ∈ entries, e.1 ∈ fields.names := by
  have front {name : String} {names : List String} {value : Json} {others : List (String × Json)}
      (inside : ∀ e ∈ others, e.1 ∈ names) : ∀ e ∈ (name, value) :: others, e.1 ∈ name :: names :=
    List.forall_mem_cons.2 ⟨List.mem_cons_self, fun e he => List.mem_cons_of_mem _ (inside e he)⟩
  induction fields generalizing entries with
  | done => cases h; simp
  | must name decode rest ih =>
    obtain ⟨value, others, rfl, -, tail⟩ := h
    exact front (ih tail)
  | may name decode default rest ih =>
    rcases h with ⟨-, tail⟩ | ⟨value, others, rfl, -, tail⟩
    · exact fun e he => List.mem_cons_of_mem _ (ih tail e he)
    · exact front (ih tail)
  | nullable name decode rest ih =>
    rcases h with ⟨-, tail⟩ | ⟨value, others, rfl, -, tail⟩
    · exact fun e he => List.mem_cons_of_mem _ (ih tail e he)
    · exact front (ih tail)

section
variable {α ρ υ : Type} {fields : Fields (α × ρ) υ} {rest : Fields ρ τ}
  {entries : List (String × Json)} {a : α}

/-- Entries of other names leave the first field as it is. -/
theorem readObject_others
    (skips : ∀ e ∈ entries, ∀ d known,
      fields.set e.1 d (a, known) = (rest.set e.1 d known).map (a, ·)) (known : ρ) :
    fields.readObject (ofEntries entries) (a, known) =
      (rest.readObject (ofEntries entries) known).map (a, ·) := by
  induction entries generalizing known with
  | nil => rfl
  | cons e entries ih =>
    obtain ⟨first, others⟩ := List.forall_mem_cons.1 skips
    simp only [ofEntries, readObject, first]
    cases rest.set e.1 (ofJson e.2) known with
    | error e => rfl
    | ok next => exact ih others next

/-- The first field is read from the first entry, the other fields from the other entries. -/
theorem readObject_front {name : String} {value : Json} {before : α} {known : ρ}
    (set : fields.set name (ofJson value) (before, rest.start) = .ok (a, rest.start))
    (skips : ∀ e ∈ entries, ∀ d known,
      fields.set e.1 d (a, known) = (rest.set e.1 d known).map (a, ·))
    (read : rest.readObject (ofEntries entries) rest.start = .ok known) :
    fields.readObject (ofEntries ((name, value) :: entries)) (before, rest.start) =
      .ok (a, known) := by
  rw [ofEntries, readObject, set]
  show fields.readObject (ofEntries entries) (a, rest.start) = _
  rw [readObject_others skips, read]
  rfl

end

/-- A field that may be null is one whose default is none. -/
theorem readObject_nullable {α ρ : Type} (name : String) (decode : Draft → Decoded α)
    (rest : Fields ρ τ) (entries : List (Option String × Draft)) (known : Option (Option α) × ρ) :
    (nullable name decode rest).readObject entries known =
      (may name (optional decode) none rest).readObject entries known := by
  induction entries generalizing known with
  | nil => rfl
  | cons e entries ih =>
    obtain ⟨name, d⟩ := e
    cases name with
    | none => rfl
    | some name => simp only [readObject, ih]; rfl

theorem readObject_may {α ρ : Type} {name : String} {decode : Draft → Decoded α} {default : α}
    {rest : Fields ρ τ} (new : name ∉ rest.names)
    (ih : ∀ {entries : List (String × Json)} {record : τ}, rest.Writes entries record →
      ∃ known, rest.readObject (ofEntries entries) rest.start = .ok known ∧
        rest.finish known = .ok record)
    {entries : List (String × Json)} {record : α × τ}
    (h : (may name decode default rest).Writes entries record) :
    ∃ known, (may name decode default rest).readObject (ofEntries entries) (none, rest.start) =
        .ok known ∧ (may name decode default rest).finish known = .ok record := by
  have other {others : List (String × Json)} {record : τ} (tail : rest.Writes others record) :
      ∀ e ∈ others, e.1 ≠ name := fun e he same => new (same ▸ rest.mem_names_of_writes tail e he)
  obtain ⟨x, record⟩ := record
  rcases h with ⟨rfl, tail⟩ | ⟨value, others, rfl, decoded, tail⟩
  · obtain ⟨known, read, finished⟩ := ih tail
    refine ⟨(none, known), ?_, by rw [finish, finished]; rfl⟩
    rw [readObject_others fun e he d k => by rw [set, if_neg (other tail e he)], read]
    rfl
  · obtain ⟨known, read, finished⟩ := ih tail
    refine ⟨(some x, known), readObject_front ?_ (fun e he d k => ?_) read,
      by rw [finish, finished]; rfl⟩
    · simp [set, once, decoded, Except.map]
    · rw [set, if_neg (other tail e he)]

theorem readObject_of_writes (fields : Fields σ τ) (distinct : fields.names.Nodup)
    {entries : List (String × Json)} {record : τ} (h : fields.Writes entries record) :
    ∃ known, fields.readObject (ofEntries entries) fields.start = .ok known ∧
      fields.finish known = .ok record := by
  induction fields generalizing entries with
  | done => cases h; exact ⟨(), rfl, rfl⟩
  | must name decode rest ih =>
    obtain ⟨new, apart⟩ := List.nodup_cons.1 distinct
    obtain ⟨x, record⟩ := record
    obtain ⟨value, others, rfl, decoded, tail⟩ := h
    obtain ⟨known, read, finished⟩ := ih apart tail
    refine ⟨(some x, known), readObject_front ?_ (fun e he d k => ?_) read,
      by rw [finish, finished]; rfl⟩
    · simp [set, once, decoded, Except.map]
    · have other : e.1 ≠ name := fun same => new (same ▸ rest.mem_names_of_writes tail e he)
      rw [set, if_neg other]
  | may name decode default rest ih =>
    obtain ⟨new, apart⟩ := List.nodup_cons.1 distinct
    exact readObject_may new (ih apart) h
  | nullable name decode rest ih =>
    obtain ⟨new, apart⟩ := List.nodup_cons.1 distinct
    have written : (may name (optional decode) none rest).Writes entries record := h
    simp only [readObject_nullable]
    exact readObject_may new (ih apart) written

/-- The entries of a record are read as the record. -/
theorem read_of_writes (fields : Fields σ τ) (distinct : fields.names.Nodup)
    {entries : List (String × Json)} {record : τ} (h : fields.Writes entries record) :
    fields.read (ofJson (.object entries)) = .ok record := by
  obtain ⟨known, read, finished⟩ := fields.readObject_of_writes distinct h
  exact bind_eq_ok_iff.2 ⟨known, read, finished⟩

theorem known_start (fields : Fields σ τ) : fields.Known D fields.start := by
  induction fields with
  | done => trivial
  | must | may | nullable => simp_all [Known, start]

theorem known_once {α : Type} {decode : Draft → Decoded α} {d : Draft} (hd : D d)
    {a b : Option α} (h : once decode d a = .ok b) : ∀ x ∈ b, ∃ d, D d ∧ decode d = .ok x := by
  cases a with
  | some a => cases h
  | none =>
    obtain ⟨x, hx, rfl⟩ := map_eq_ok_iff.1 h
    intro y hy
    cases hy
    exact ⟨d, hd, hx⟩

/-- A value is taken for the field of its name, or left to the other fields. -/
theorem set_cases {α : Type} {decode : Draft → Decoded α} {d : Draft} {a : Option α} {known : σ}
    {named : Prop} [Decidable named] {others : Decoded σ} {next : Option α × σ}
    (h : (if named then (once decode d a).map (·, known) else others.map (a, ·)) = .ok next) :
    (∃ b, once decode d a = .ok b ∧ next = (b, known)) ∨
      ∃ after, others = .ok after ∧ next = (a, after) := by
  split at h
  · obtain ⟨b, hb, rfl⟩ := map_eq_ok_iff.1 h
    exact .inl ⟨b, hb, rfl⟩
  · obtain ⟨after, ha, rfl⟩ := map_eq_ok_iff.1 h
    exact .inr ⟨after, ha, rfl⟩

theorem known_set (fields : Fields σ τ) {name : String} {d : Draft} (hd : D d) {known next : σ}
    (h : fields.set name d known = .ok next) (before : fields.Known D known) :
    fields.Known D next := by
  induction fields with
  | done => trivial
  | must n decode rest ih =>
    rcases set_cases h with ⟨b, hb, rfl⟩ | ⟨after, ha, rfl⟩
    · exact ⟨known_once hd hb, before.2⟩
    · exact ⟨before.1, ih ha before.2⟩
  | may n decode default rest ih =>
    rcases set_cases h with ⟨b, hb, rfl⟩ | ⟨after, ha, rfl⟩
    · exact ⟨known_once hd hb, before.2⟩
    · exact ⟨before.1, ih ha before.2⟩
  | nullable n decode rest ih =>
    rcases set_cases h with ⟨b, hb, rfl⟩ | ⟨after, ha, rfl⟩
    · exact ⟨known_once hd hb, before.2⟩
    · exact ⟨before.1, ih ha before.2⟩

theorem made_finish (fields : Fields σ τ) {known : σ} {record : τ}
    (h : fields.finish known = .ok record) (all : fields.Known D known) : fields.Made D record := by
  induction fields with
  | done => trivial
  | must n decode rest ih =>
    obtain ⟨a, known⟩ := known
    cases a with
    | none => cases h
    | some a =>
      obtain ⟨others, ho, rfl⟩ := map_eq_ok_iff.1 h
      exact ⟨all.1 a rfl, ih ho all.2⟩
  | may n decode default rest ih =>
    obtain ⟨a, known⟩ := known
    obtain ⟨others, ho, rfl⟩ := map_eq_ok_iff.1 h
    cases a with
    | none => exact ⟨.inl rfl, ih ho all.2⟩
    | some a => exact ⟨.inr (all.1 a rfl), ih ho all.2⟩
  | nullable n decode rest ih =>
    obtain ⟨a, known⟩ := known
    obtain ⟨others, ho, rfl⟩ := map_eq_ok_iff.1 h
    cases a with
    | none => exact ⟨.inl rfl, ih ho all.2⟩
    | some a => exact ⟨.inr (all.1 a rfl), ih ho all.2⟩

theorem known_readObject (fields : Fields σ τ) {entries : List (Option String × Draft)}
    (parts : ∀ e ∈ entries, D e.2) {known next : σ}
    (h : fields.readObject entries known = .ok next) (before : fields.Known D known) :
    fields.Known D next := by
  induction entries generalizing known with
  | nil => cases h; exact before
  | cons e entries ih =>
    obtain ⟨hd, rest⟩ := List.forall_mem_cons.1 parts
    obtain ⟨name, d⟩ := e
    cases name with
    | none => cases h
    | some name =>
      obtain ⟨middle, hm, hn⟩ := bind_eq_ok_iff.1 h
      exact ih rest hn (known_set fields hd hm before)

theorem known_readArray (fields : Fields σ τ) {names : List String} {items : List Draft}
    (parts : ∀ d ∈ items, D d) {known next : σ}
    (h : fields.readArray names items known = .ok next) (before : fields.Known D known) :
    fields.Known D next := by
  induction items generalizing names known with
  | nil => cases names <;> cases h <;> exact before
  | cons d items ih =>
    obtain ⟨hd, rest⟩ := List.forall_mem_cons.1 parts
    cases names with
    | nil => cases h
    | cons name names =>
      obtain ⟨middle, hm, hn⟩ := bind_eq_ok_iff.1 h
      exact ih rest hn (known_set fields hd hm before)

/-- The fields of a record come from the parts of its draft, which is an object or an array. -/
theorem made_of_parts (fields : Fields σ τ) {d : Draft} {record : τ}
    (h : fields.read d = .ok record)
    (object : ∀ entries, d = .object entries → ∀ e ∈ entries, D e.2)
    (array : ∀ items, d = .array items → ∀ p ∈ items, D p) : fields.Made D record := by
  match d with
  | .object entries =>
    obtain ⟨known, hk, finished⟩ := bind_eq_ok_iff.1 h
    exact fields.made_finish finished
      (fields.known_readObject (object entries rfl) hk fields.known_start)
  | .array items =>
    obtain ⟨known, hk, finished⟩ := bind_eq_ok_iff.1 h
    split at finished
    · cases finished
    · exact fields.made_finish finished
        (fields.known_readArray (array items rfl) hk fields.known_start)
  | .null | .bool _ | .number _ | .string _ | .fault => cases h

/-- Each field of a record was decoded, or is a default. -/
theorem decoded_of_read (fields : Fields σ τ) {d : Draft} {record : τ}
    (h : fields.read d = .ok record) : fields.Made (fun _ => True) record :=
  fields.made_of_parts h (fun _ _ _ _ => trivial) fun _ _ _ _ => trivial

/-- The fields of a record nest less than its draft. -/
theorem made_of_read (fields : Fields σ τ) {d : Draft} {record : τ}
    (h : fields.read d = .ok record) (within : d.Within P levels) :
    0 < levels ∧ fields.Made (Within P (levels - 1)) record := by
  refine ⟨?_, fields.made_of_parts h ?_ ?_⟩
  · match d with
    | .object _ => exact (within_object.1 within).1
    | .array _ => exact (within_array.1 within).1
    | .null | .bool _ | .number _ | .string _ | .fault => cases h
  · rintro entries rfl e he
    exact ((within_object.1 within).2 e he).2
  · rintro items rfl
    exact (within_array.1 within).2

/-- What is made of a record nests in something. -/
theorem pos_of_read {α : Type} {fields : Fields σ τ} {make : τ → Decoded α} {d : Draft} {a : α}
    (h : (fields.read d >>= make) = .ok a) (within : d.Within P levels) : 0 < levels := by
  obtain ⟨record, read, -⟩ := bind_eq_ok_iff.1 h
  exact (fields.made_of_read read within).1

end Fields

end Crosstab.Json
