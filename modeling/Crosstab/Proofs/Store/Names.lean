import Crosstab.Proofs.Maps
import Crosstab.Proofs.Store.Database
import Crosstab.Proofs.Store.Imports

/-!
# Tables found by name

The engine takes two names for one if they differ at most in the case of ASCII letters. A catalog
takes two names for one if they have the same upper case, which is less strict: `é` and `É` are two
tables of the engine and one of the catalog. So a catalog finds the table that the engine means
unless another table was made known later whose name only the catalog takes for the same.
-/

namespace Crosstab

namespace Catalog

/-- Two names that the catalog takes for one. -/
def SameKey (a b : String) : Prop := key a = key b

instance (a b : String) : Decidable (SameKey a b) := inferInstanceAs (Decidable (_ = _))

def ofCalls (calls : List CatalogEntry) : Catalog :=
  calls.foldl (fun c e => c.replace e.name e.schema) empty

section
variable (same : String → String → Prop) [DecidableRel same]

/-- The last of the tables whose name is the same as a name. -/
def latest? (calls : List CatalogEntry) (name : String) : Option CatalogEntry :=
  calls.reverse.find? fun e => decide (same e.name name)

/-- The names in order, each once: of the names that are the same, the one that came last. -/
structure Lists (calls : List CatalogEntry) (names : List String) : Prop where
  sorted : names.Pairwise (· ≤ ·)
  nodup : names.Nodup
  mem_iff : ∀ name, name ∈ names ↔ ∃ e, latest? same calls name = some e ∧ e.name = name

end

/-! ## Upper case -/

/-- The upper case of a character does not depend on its own case, if it is an ASCII letter. -/
theorem upperChar_toLower (c : Char) : Text.upperChar c.toLower = Text.upperChar c := by
  by_cases ascii : c.toNat < 128
  · have all : ∀ n < 128, Text.upperChar (Char.ofNat n).toLower = Text.upperChar (Char.ofNat n) := by
      decide
    have here := all c.toNat ascii
    rwa [Char.ofNat_toNat] at here
  · have upper : ¬ (c.val ≥ 'A'.val ∧ c.val ≤ 'Z'.val) := by
      rintro ⟨-, high⟩
      have := UInt32.le_iff_toNat_le.1 high
      simp at this
      omega
    unfold Char.toLower
    rw [dif_neg upper]

/-- The catalog never tells names apart that the engine takes for one. -/
theorem sameKey_of_sameName {a b : String} (h : SameName a b) : SameKey a b := by
  have folded (s : String) : Text.upperCase s = (foldCase s).flatMap Text.upperChar := by
    rw [Text.upperCase, foldCase, List.flatMap_map]
    exact List.flatMap_congr fun c _ => (upperChar_toLower c).symm
  have lower : foldCase a = foldCase b := h
  rw [SameKey, key, key, folded, folded, lower]

theorem sameKey_congr {a b : String} (h : SameKey a b) (name : String) :
    SameKey name a ↔ SameKey name b :=
  ⟨fun k => Eq.trans k h, fun k => Eq.trans k (Eq.symm h)⟩

/-! ## Runs of calls -/

theorem get?_replace (c : Catalog) (name : String) (schema : Schema) (other : String) :
    (c.replace name schema).get? other =
      if SameKey name other then some ⟨name, schema⟩ else c.get? other := by
  by_cases same : SameKey name other
  · rw [if_pos same, get?, ← show key name = key other from same]
    exact OrderedMap.get?_insert_self _ _ _
  · rw [if_neg same]
    exact OrderedMap.get?_insert_of_ne _ _ _ (Ne.symm same)

theorem latest?_cons (same : String → String → Prop) [DecidableRel same] (e : CatalogEntry)
    (calls : List CatalogEntry) (name : String) : latest? same (e :: calls) name =
      (latest? same calls name).or (if same e.name name then some e else none) := by
  rw [latest?, List.reverse_cons, List.find?_append, latest?]
  by_cases h : same e.name name <;> simp [h]

/-- Of the tables that it takes for one, the catalog shows the last. -/
theorem get?_foldl_replace (c : Catalog) (calls : List CatalogEntry) (name : String) :
    (calls.foldl (fun c e => c.replace e.name e.schema) c).get? name =
      (latest? SameKey calls name).or (c.get? name) := by
  induction calls generalizing c with
  | nil => rfl
  | cons e calls ih =>
    rw [List.foldl_cons, ih, get?_replace, latest?_cons]
    by_cases same : SameKey e.name name
    · rw [if_pos same, if_pos same, Option.or_assoc]
      rfl
    · rw [if_neg same, if_neg same, Option.or_none]

theorem get?_ofCalls (calls : List CatalogEntry) (name : String) :
    (ofCalls calls).get? name = latest? SameKey calls name := by
  rw [ofCalls, get?_foldl_replace]
  exact Option.or_none

/-- Every table is kept under its own name. -/
theorem key_of_mem_ofCalls {calls : List CatalogEntry} :
    ∀ entry ∈ (ofCalls calls).entries.entries, entry.1 = key entry.2.name := by
  have kept (c : Catalog) (h : ∀ entry ∈ c.entries.entries, entry.1 = key entry.2.name) :
      ∀ entry ∈ (calls.foldl (fun c e => c.replace e.name e.schema) c).entries.entries,
        entry.1 = key entry.2.name := by
    induction calls generalizing c with
    | nil => exact h
    | cons e calls ih =>
      apply ih
      intro entry mem
      obtain rfl | mem := OrderedMap.mem_insertEntry mem
      · rfl
      · exact h entry mem
  exact kept empty (List.forall_mem_nil _)

theorem lists_ofCalls (calls : List CatalogEntry) :
    Lists SameKey calls (ofCalls calls).names where
  sorted := by
    have sorted : (ofCalls calls).names.Pairwise fun a b => decide (a ≤ b) = true :=
      List.pairwise_mergeSort
        (fun a b c h k => by simpa using String.le_trans (by simpa using h) (by simpa using k))
        (fun a b => by simpa using String.le_total a b) _
    exact sorted.imp fun h => by simpa using h
  nodup := by
    rw [names, (List.mergeSort_perm _ _).nodup_iff]
    refine List.pairwise_map.2 ((ofCalls calls).entries.sorted.imp_of_mem ?_)
    intro a b ha hb lt same
    have keys : a.1 = b.1 := by
      rw [key_of_mem_ofCalls a ha, key_of_mem_ofCalls b hb, same]
    exact OrderedMap.ne_of_lt lt keys
  mem_iff name := by
    rw [names, (List.mergeSort_perm _ _).mem_iff, List.mem_map]
    constructor
    · rintro ⟨⟨k, e⟩, mem, rfl⟩
      have found : (ofCalls calls).get? e.name = some e := by
        rw [get?, ← key_of_mem_ofCalls _ mem]
        exact OrderedMap.get?_eq_some_iff.2 mem
      exact ⟨e, get?_ofCalls calls _ ▸ found, rfl⟩
    · rintro ⟨e, found, rfl⟩
      rw [← get?_ofCalls] at found
      exact ⟨_, OrderedMap.get?_eq_some_iff.1 found, rfl⟩

/-! ## The engine's rule -/

theorem of_latest? {same : String → String → Prop} [DecidableRel same] {calls : List CatalogEntry}
    {name : String} {e : CatalogEntry} (h : latest? same calls name = some e) :
    e ∈ calls ∧ same e.name name :=
  ⟨List.mem_reverse.1 (List.mem_of_find?_eq_some h), by simpa using List.find?_some h⟩

theorem exists_latest? (same : String → String → Prop) [DecidableRel same]
    {calls : List CatalogEntry} {e : CatalogEntry} (mem : e ∈ calls) {name : String}
    (h : same e.name name) : ∃ last, latest? same calls name = some last := by
  apply Option.isSome_iff_exists.1
  exact List.find?_isSome.2 ⟨e, List.mem_reverse.2 mem, by simpa using h⟩

theorem latest?_congr {same : String → String → Prop} [DecidableRel same] {a b : String}
    (h : ∀ name, same name a ↔ same name b) (calls : List CatalogEntry) :
    latest? same calls a = latest? same calls b := by
  have each (e : CatalogEntry) : decide (same e.name a) = decide (same e.name b) :=
    decide_eq_decide.2 (h e.name)
  rw [latest?, latest?, funext each]

section
variable {strict loose : String → String → Prop} [DecidableRel strict] [DecidableRel loose]
  (implies : ∀ a b, strict a b → loose a b) {calls : List CatalogEntry} {name : String}
include implies

theorem latest?_eq_none_of_strict (h : latest? loose calls name = none) :
    latest? strict calls name = none := by
  by_contra found
  obtain ⟨e, he⟩ := Option.ne_none_iff_exists'.1 found
  obtain ⟨mem, same⟩ := of_latest? he
  obtain ⟨last, hl⟩ := exists_latest? loose mem (implies _ _ same)
  rw [h] at hl
  cases hl

/-- The last table under a less strict rule is the last one under the strict rule, if its name is
the same under that rule too. -/
theorem latest?_of_strict {e : CatalogEntry} (h : latest? loose calls name = some e)
    (own : strict e.name name) : latest? strict calls name = some e := by
  induction calls with
  | nil => cases h
  | cons first calls ih =>
    rw [latest?_cons] at h ⊢
    cases later : latest? loose calls name with
    | some last =>
      rw [later, Option.some_or] at h
      rw [ih (later.trans h), Option.some_or]
    | none =>
      rw [later, Option.none_or] at h
      rw [latest?_eq_none_of_strict implies later, Option.none_or]
      split at h
      · cases h
        exact if_pos own
      · cases h

end

section
variable {calls : List CatalogEntry}

/-- The catalog finds the table that the engine means if that is the last one with its key. -/
theorem get?_eq_latest?_iff (name : String) :
    (ofCalls calls).get? name = latest? SameName calls name ↔
      ∀ e, latest? SameKey calls name = some e → SameName e.name name := by
  have implies (a b : String) (h : SameName a b) : SameKey a b := sameKey_of_sameName h
  rw [get?_ofCalls]
  constructor
  · intro same e last
    exact (of_latest? (same ▸ last)).2
  · intro own
    cases last : latest? SameKey calls name with
    | some e => exact (latest?_of_strict implies last (own e last)).symm
    | none => exact (latest?_eq_none_of_strict implies last).symm

/-- The catalog lists the engine's tables if it tells their names apart as the engine does. -/
theorem lists_sameName_iff : Lists SameName calls (ofCalls calls).names ↔
    ∀ a ∈ calls, ∀ b ∈ calls, SameKey a.name b.name → SameName a.name b.name := by
  have implies (a b : String) (h : SameName a b) : SameKey a b := sameKey_of_sameName h
  have keys := lists_ofCalls calls
  constructor
  · intro lists a ha b hb sameKey
    -- the last spellings of both names are listed, under one key
    have spelled {e : CatalogEntry} (mem : e ∈ calls) : ∃ last,
        SameName last.name e.name ∧ latest? SameKey calls e.name = some last := by
      obtain ⟨last, found⟩ := exists_latest? SameName mem (SameName.refl _)
      have same := (of_latest? found).2
      have again := found
      rw [← latest?_congr (fun _ => sameName_congr same) calls] at again
      obtain ⟨x, hx, named⟩ := (keys.mem_iff _).1 ((lists.mem_iff _).2 ⟨last, again, rfl⟩)
      have key : SameKey last.name e.name := implies _ _ same
      rw [latest?_congr (sameKey_congr key) calls] at hx
      exact ⟨x, named ▸ same, hx⟩
    obtain ⟨x, sameX, hx⟩ := spelled ha
    obtain ⟨y, sameY, hy⟩ := spelled hb
    rw [latest?_congr (sameKey_congr sameKey) calls, hy] at hx
    cases hx
    exact sameX.symm.trans sameY
  · intro apart
    refine ⟨keys.sorted, keys.nodup, fun name => ?_⟩
    rw [keys.mem_iff]
    constructor
    · rintro ⟨e, last, rfl⟩
      exact ⟨e, latest?_of_strict implies last (SameName.refl _), rfl⟩
    · rintro ⟨e, found, rfl⟩
      obtain ⟨mem, -⟩ := of_latest? found
      obtain ⟨last, hl⟩ := exists_latest? SameKey mem rfl
      obtain ⟨memLast, sameKey⟩ := of_latest? hl
      have strict := latest?_of_strict implies hl (apart last memLast e mem sameKey)
      rw [found] at strict
      cases strict
      exact ⟨e, hl, rfl⟩

end

end Catalog

/-! ## Imports -/

namespace Store

/-- What an import calls the table in the catalog. -/
def catalogEntry (i : String × Table) : CatalogEntry := ⟨i.1, i.2.schema⟩

variable {δ : Type} [SqlEngine δ] {held : δ → String → Option StoredTable}
  {kept : Option String → Cell → Cell} (lawful : SqlEngine.Lawful held kept) {s s' : Store δ}
  {imports : List (String × Table)}
include lawful

/-- The engine admits imports only under names that it takes for new ones. -/
theorem names_of_importAll (h : s.importAll imports = .ok s') :
    (∀ i ∈ imports, held s.database i.1 = none) ∧
      imports.Pairwise (fun i j => ¬ SameName i.1 j.1) := by
  induction imports generalizing s with
  | nil => exact ⟨List.forall_mem_nil _, .nil⟩
  | cons first imports ih =>
    obtain ⟨next, imported, rest⟩ := bind_eq_ok_iff.1 h
    obtain ⟨⟨q, after⟩, done, rfl⟩ := map_eq_ok_iff.1 imported
    obtain ⟨-, -, new, ⟨t, -, -, puts⟩, -⟩ := importTable_eq_ok lawful done
    obtain ⟨others, apart⟩ := ih rest
    have each : ∀ i ∈ imports, held s.database i.1 = none ∧ ¬ SameName first.1 i.1 := by
      intro i hi
      have none := others i hi
      rw [puts] at none
      split at none
      · cases none
      · next other => exact ⟨none, other⟩
    exact ⟨List.forall_mem_cons.2 ⟨new, fun i hi => (each i hi).1⟩,
      List.pairwise_cons.2 ⟨fun i hi => (each i hi).2, apart⟩⟩

/-- The catalog after imports is the one after as many calls. -/
theorem catalog_of_importAll (h : s.importAll imports = .ok s') :
    s'.catalog =
      (imports.map catalogEntry).foldl (fun c e => c.replace e.name e.schema) s.catalog := by
  induction imports generalizing s with
  | nil => cases pure_eq_ok_iff.1 h; rfl
  | cons first imports ih =>
    obtain ⟨next, imported, rest⟩ := bind_eq_ok_iff.1 h
    obtain ⟨⟨q, after⟩, done, rfl⟩ := map_eq_ok_iff.1 imported
    obtain ⟨-, -, -, -, catalog⟩ := importTable_eq_ok lawful done
    rw [ih rest, catalog]
    rfl

end Store

namespace Catalog

open Store (catalogEntry)

/-- A table is found under its name as long as no other is imported that has the same key. -/
theorem get?_imported_iff {c : Catalog} {before after : List (String × Table)} {i : String × Table}
    (apart : ∀ later ∈ after, ¬ SameName i.1 later.1) :
    (((before ++ i :: after).map catalogEntry).foldl (fun c e => c.replace e.name e.schema) c).get?
        i.1 = some (catalogEntry i) ↔ ∀ later ∈ after, ¬ SameKey later.1 i.1 := by
  have itself : SameKey (catalogEntry i).name i.1 := rfl
  rw [List.map_append, List.foldl_append, get?_foldl_replace, List.map_cons, latest?_cons,
    if_pos itself]
  constructor
  · intro found later mem sameKey
    have entry : catalogEntry later ∈ after.map catalogEntry := List.mem_map_of_mem mem
    obtain ⟨last, hl⟩ := exists_latest? SameKey entry sameKey
    rw [hl, Option.some_or, Option.some_or] at found
    cases found
    obtain ⟨j, hj, same⟩ := List.mem_map.1 (of_latest? hl).1
    have named : j.1 = i.1 := congrArg CatalogEntry.name same
    exact apart j hj (named ▸ SameName.refl _)
  · intro new
    have none : latest? SameKey (after.map catalogEntry) i.1 = none := by
      by_contra found
      obtain ⟨last, hl⟩ := Option.ne_none_iff_exists'.1 found
      obtain ⟨mem, sameKey⟩ := of_latest? hl
      obtain ⟨later, hm, rfl⟩ := List.mem_map.1 mem
      exact new later hm sameKey
    rw [none, Option.none_or, Option.some_or]

/-- After any calls the catalog shows the last table of each key, and names that the engine takes for
one have one key. So it finds the table that the engine means under a name exactly if the last table
with the key of the name has that name for the engine too, and it lists the engine's tables exactly
if it tells the names of the calls apart as the engine does.

Imports succeed only under names that the engine tells apart. Each imported table is found under its
own name exactly if no table was imported later with the same key. -/
theorem follows_calls (calls : List CatalogEntry) :
    (∀ name, (ofCalls calls).get? name = latest? SameKey calls name) ∧
    Lists SameKey calls (ofCalls calls).names ∧
    (∀ a b, SameName a b → SameKey a b) ∧
    (∀ name, (ofCalls calls).get? name = latest? SameName calls name ↔
      ∀ e, latest? SameKey calls name = some e → SameName e.name name) ∧
    (Lists SameName calls (ofCalls calls).names ↔
      ∀ a ∈ calls, ∀ b ∈ calls, SameKey a.name b.name → SameName a.name b.name) ∧
    ∀ (δ : Type) [SqlEngine δ] (held : δ → String → Option StoredTable)
      (kept : Option String → Cell → Cell), SqlEngine.Lawful held kept →
      ∀ (s s' : Store δ) (imports : List (String × Table)), s.importAll imports = .ok s' →
      imports.Pairwise (fun i j => ¬ SameName i.1 j.1) ∧
      ∀ before i after, imports = before ++ i :: after →
        (s'.catalog.get? i.1 = some (catalogEntry i) ↔ ∀ later ∈ after, ¬ SameKey later.1 i.1) := by
  refine ⟨get?_ofCalls calls, lists_ofCalls calls, fun _ _ => sameKey_of_sameName,
    get?_eq_latest?_iff, lists_sameName_iff, ?_⟩
  intro δ _ held kept lawful s s' imports done
  obtain ⟨-, apart⟩ := Store.names_of_importAll lawful done
  refine ⟨apart, ?_⟩
  rintro before i after rfl
  rw [Store.catalog_of_importAll lawful done]
  apply get?_imported_iff
  exact (List.pairwise_cons.1 (List.pairwise_append.1 apart).2.1).1

def single (type : DataType) : Table where
  schema := ⟨[.named "x" type], by simp [Column.named], by simp⟩
  rows := []

def emptyStore : Store Database := ⟨.default, .empty, .empty false⟩

/-- Two tables are imported under names that the engine tells apart. -/
theorem exists_importAll_singles {a b : String} (type other : DataType)
    (names : ∀ name ∈ [a, b], name ≠ "" ∧ '\x00' ∉ name.toList ∧ Database.isOwnName name = false)
    (apart : ¬ SameName a b) :
    ∃ s', emptyStore.importAll [(a, single type), (b, single other)] = .ok s' := by
  have admissible {name : String} (type : DataType) (mem : name ∈ [a, b]) :
      Store.Admissible name (single type) := by
    obtain ⟨named, noNul, own⟩ := names name mem
    have column : Clean ["x"] := by decide
    exact ⟨named, List.forall_mem_cons.2 ⟨noNul, column⟩, own, rfl, List.forall_mem_nil _⟩
  refine Store.exists_importAll rfl ?_ (fun _ _ => rfl) (List.pairwise_pair.2 apart)
  rintro i (_ | ⟨_, _ | ⟨_, ⟨⟩⟩⟩)
  · exact admissible type (by simp)
  · exact admissible other (by simp)

theorem follows_calls_sales : ∃ s',
    emptyStore.importAll [("Sales", single .integer), ("Straße", single .text)] = .ok s' ∧
      ¬ SameName "Sales" "Straße" ∧
      s'.catalog.get? "Sales" = some ⟨"Sales", (single .integer).schema⟩ := by
  obtain ⟨s', done⟩ : ∃ s', emptyStore.importAll
      [("Sales", single .integer), ("Straße", single .text)] = .ok s' :=
    exists_importAll_singles _ _ (by decide) (by decide)
  obtain ⟨-, -, -, -, -, imports⟩ := follows_calls []
  obtain ⟨apart, found⟩ := imports _ _ _ Database.lawful _ _ _ done
  have new : ∀ later ∈ [("Straße", single .text)], ¬ SameKey later.1 "Sales" := by
    decide +kernel
  exact ⟨s', done, (List.pairwise_cons.1 apart).1 _ List.mem_cons_self, (found [] _ _ rfl).2 new⟩

/-- Two tables that the engine admits, as it takes their names for two, are one in the catalog. -/
theorem not_follows_calls_accents : ∃ s',
    emptyStore.importAll [("é", single .integer), ("É", single .text)] = .ok s' ∧
      latest? SameName [⟨"é", (single .integer).schema⟩, ⟨"É", (single .text).schema⟩] "é" =
        some ⟨"é", (single .integer).schema⟩ ∧
      s'.catalog.get? "é" = some ⟨"É", (single .text).schema⟩ ∧ s'.catalog.names = ["É"] := by
  obtain ⟨s', done⟩ : ∃ s', emptyStore.importAll
      [("é", single .integer), ("É", single .text)] = .ok s' :=
    exists_importAll_singles _ _ (by decide) (by decide)
  refine ⟨s', done, by decide +kernel, ?_⟩
  rw [Store.catalog_of_importAll Database.lawful done]
  exact ⟨by decide +kernel, by decide +kernel⟩

end Catalog

end Crosstab
