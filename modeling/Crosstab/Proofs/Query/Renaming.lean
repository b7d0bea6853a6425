import Crosstab.Proofs.Query.Respelling
import Crosstab.Sql.Compile

/-!
# Columns renamed by name and by position

A name means a column of the schema as it is before any column gets its new name. So the order in
which the entries of a mapping come does not matter, and columns found by name are renamed as columns
given by position are, names that change places included.
-/

namespace Crosstab

namespace Schema

variable {s t : Schema} {names : OrderedMap String Renaming} {places : OrderedMap Nat Renaming}

/-- The mappings give the same new names to the same columns, one by the names and the other by the
positions of the columns. Every name means a column, in any case, and no column has two. -/
structure SameColumns (s : Schema) (names : OrderedMap String Renaming)
    (places : OrderedMap Nat Renaming) : Prop where
  known : ∀ e ∈ names.entries, s.has e.1 = true
  once : RenamedOnce names.entries
  same : ∀ i new,
    (i, new) ∈ places.entries ↔ ∃ name, (name, new) ∈ names.entries ∧ s.index? name = some i

/-- A column with the new names that are given for it, if there are any. -/
def newColumn (new : Option Renaming) (c : Column) : Column := new.elim c (·.apply c)

def renamedAt (s : Schema) (places : OrderedMap Nat Renaming) : List Column :=
  s.columns.mapIdx fun i c => newColumn (places.get? i) c

/-! ## By position -/

/-- The columns with the new names of an entry. -/
def renamedPlace (columns : List Column) (entry : Nat × Renaming) : List Column :=
  columns.modify entry.1 entry.2.apply

/-- After all entries a column has the new names of its own entry. The induction is on the entries;
those after the column's own leave it as it is, since no position comes twice. -/
theorem getElem?_foldl_renamedPlace {entries : List (Nat × Renaming)}
    (once : (entries.map (·.1)).Nodup) (columns : List Column) (i : Nat) :
    (entries.foldl renamedPlace columns)[i]? =
      columns[i]?.map (newColumn ((entries.find? (·.1 = i)).map (·.2))) := by
  induction entries generalizing columns with
  | nil =>
    show columns[i]? = columns[i]?.map fun c => c
    rw [Option.map_id']
  | cons e entries ih =>
    obtain ⟨new, once⟩ := List.nodup_cons.1 once
    rw [List.foldl_cons, ih once, renamedPlace, List.getElem?_modify]
    by_cases here : e.1 = i
    · have later : entries.find? (·.1 = i) = none :=
        OrderedMap.find?_eq_none_of_not_mem (here ▸ new)
      rw [later, List.find?_cons_of_pos (by simpa using here)]
      cases columns[i]? with
      | none => rfl
      | some c => simp [here, newColumn]
    · rw [List.find?_cons_of_neg (by simpa using here)]
      simp only [here, if_false, Option.map_eq_map, Option.map_id']

theorem foldl_renamedPlace (s : Schema) (places : OrderedMap Nat Renaming) :
    places.entries.foldl renamedPlace s.columns = s.renamedAt places := by
  apply List.ext_getElem?
  intro i
  rw [getElem?_foldl_renamedPlace places.nodup_keys, renamedAt, List.getElem?_mapIdx]
  rfl

/-- Columns of the schema that are given by position get their new names. -/
theorem mapColumnsAt_eq (inside : ∀ e ∈ places.entries, e.1 < s.columns.length) :
    s.mapColumnsAt places = build .mapColumnsByIndex (s.renamedAt places) := by
  unfold mapColumnsAt
  rw [foldlM_eq_ok (f := renamedPlace), ← foldl_renamedPlace]
  · rfl
  · rintro ⟨i, new⟩ mem columns
    dsimp only
    rw [if_pos (inside _ mem)]
    rfl

/-! ## By name -/

theorem lt_of_index? {name : String} {i : Nat} (found : s.index? name = some i) :
    i < s.columns.length := by
  obtain ⟨lt, -⟩ := List.findIdx?_eq_some_iff_getElem.1 found
  exact lt

/-- The entries of a mapping by name, with the positions of the columns that the names mean. -/
def placed (s : Schema) (entries : List (String × Renaming)) : List (Nat × Renaming) :=
  entries.map fun e => ((s.index? e.1).getD 0, e.2)

namespace SameColumns

variable (h : s.SameColumns names places)
include h

theorem inside : ∀ e ∈ places.entries, e.1 < s.columns.length := by
  rintro ⟨i, new⟩ mem
  obtain ⟨name, -, found⟩ := (h.same i new).1 mem
  exact lt_of_index? found

theorem mem_placed_iff {i : Nat} {new : Renaming} :
    (i, new) ∈ s.placed names.entries ↔ (i, new) ∈ places.entries := by
  rw [h.same, placed, List.mem_map]
  constructor
  · rintro ⟨⟨name, other⟩, mem, equal⟩
    obtain ⟨j, found⟩ := exists_index?_of_has (h.known _ mem)
    dsimp only at equal found
    rw [found] at equal
    cases equal
    exact ⟨name, mem, found⟩
  · rintro ⟨name, mem, found⟩
    exact ⟨(name, new), mem, by rw [found]; rfl⟩

theorem nodup_placed : ((s.placed names.entries).map (·.1)).Nodup := by
  rw [placed, List.map_map]
  apply List.Nodup.map_on _ h.once.of_map
  intro a ha b hb equal
  obtain ⟨i, first⟩ := exists_index?_of_has (h.known a ha)
  obtain ⟨j, second⟩ := exists_index?_of_has (h.known b hb)
  have position : i = j := by simpa [first, second] using equal
  subst position
  exact List.inj_on_of_nodup_map h.once ha hb (sameName_of_index? first second)

/-- The same entries in another order. -/
theorem placed_perm : (s.placed names.entries).Perm places.entries := by
  rw [List.perm_ext_iff_of_nodup h.nodup_placed.of_map places.nodup_keys.of_map]
  rintro ⟨i, new⟩
  exact h.mem_placed_iff

theorem foldl_renamed : names.entries.foldl s.renamed s.columns = s.renamedAt places := by
  have moved : names.entries.foldl s.renamed s.columns =
      (s.placed names.entries).foldl renamedPlace s.columns := by
    rw [placed, List.foldl_map]
    apply List.foldl_ext
    intro columns e mem
    obtain ⟨i, found⟩ := exists_index?_of_has (h.known e mem)
    simp only [renamed, renamedPlace, found, Option.getD_some]
  rw [moved, ← foldl_renamedPlace]
  apply h.placed_perm.foldl_eq'
  intro a ha b hb columns
  by_cases equal : a.1 = b.1
  · rw [List.inj_on_of_nodup_map h.nodup_placed ha hb equal]
  · exact List.modify_modify_ne _ _ _ equal

/-- Columns that are found by name get the new names that are given for their positions. -/
theorem mapColumns_eq : s.mapColumns names = build .mapColumns (s.renamedAt places) := by
  rw [Schema.mapColumns_eq h.known, h.foldl_renamed]

end SameColumns

/-- Every column keeps its place and its type, and it keeps its names too unless new ones are given
for its position. -/
theorem getElem?_renamedAt {i : Nat} {c : Column} (hc : s.columns[i]? = some c) :
    ∃ d, (s.renamedAt places)[i]? = some d ∧ d.type = c.type ∧
      (∀ new, (i, new) ∈ places.entries → d = new.apply c) ∧
      ((∀ new, (i, new) ∉ places.entries) → d = c) := by
  refine ⟨newColumn (places.get? i) c, ?_, ?_, ?_, ?_⟩
  · rw [renamedAt, List.getElem?_mapIdx, hc]
    rfl
  · cases places.get? i <;> rfl
  · intro new mem
    rw [OrderedMap.get?_eq_some_iff.2 mem]
    rfl
  · intro others
    have none : places.get? i = none := by
      apply Option.eq_none_iff_forall_ne_some.2
      intro new found
      exact others new (OrderedMap.get?_eq_some_iff.1 found)
    rw [none]
    rfl

end Schema

namespace Query

theorem derive_of_error {ε : Type} {rule : Except ε Schema} {node : ∀ t, rule = .ok t → Plan t}
    {e : ε} (h : rule = .error e) : derive rule node = .error e := by
  cases h
  rfl

/-- For any query, a mapping by the names of columns, in any case, and the mapping of the same
columns by their positions either both fail, with the same fault of the renamed columns, or both
succeed, with the same schema and the same SQL. The columns keep their places and types; those that
are not mapped are kept as they are. -/
theorem mapColumns_agree (q : Query) {names : OrderedMap String Renaming}
    {places : OrderedMap Nat Renaming} (same : q.schema.SameColumns names places) :
    ((∃ e, Schema.ofColumns (q.schema.renamedAt places) = .error e ∧
        q.mapColumns names = .error (.columns .mapColumns e) ∧
        q.mapColumnsAt places = .error (.columns .mapColumnsByIndex e)) ∨
      ∃ a b, q.mapColumns names = .ok a ∧ q.mapColumnsAt places = .ok b ∧
        a.schema.columns = q.schema.renamedAt places ∧ b.schema = a.schema ∧ b.sql = a.sql ∧
        b.countSql = a.countSql) ∧
    (q.schema.renamedAt places).length = q.schema.columns.length ∧
    ∀ i c, q.schema.columns[i]? = some c →
      ∃ d, (q.schema.renamedAt places)[i]? = some d ∧ d.type = c.type ∧
        (∀ new, (i, new) ∈ places.entries → d = new.apply c) ∧
        ((∀ new, (i, new) ∉ places.entries) → d = c) := by
  have byName := same.mapColumns_eq
  have byPlace := Schema.mapColumnsAt_eq same.inside
  refine ⟨?_, List.length_mapIdx, fun i c hc => Schema.getElem?_renamedAt hc⟩
  cases columns : Schema.ofColumns (q.schema.renamedAt places) with
  | error e =>
    left
    rw [Schema.build, columns] at byName byPlace
    refine ⟨e, rfl, ?_, ?_⟩
    · exact derive_of_error byName
    · exact derive_of_error byPlace
  | ok t =>
    right
    rw [Schema.build, columns] at byName byPlace
    refine ⟨_, _, derive_eq_ok_iff.2 ⟨t, byName, rfl⟩, derive_eq_ok_iff.2 ⟨t, byPlace, rfl⟩, ?_⟩
    have shown : t.columns = q.schema.renamedAt places := Schema.ofColumns_eq_ok_iff.1 columns
    exact ⟨shown, rfl, rfl, rfl⟩

def yearlySales : Query :=
  ⟨⟨[.named "region" .text, .named "amount" .integer, .named "Year" .integer], by decide, by decide⟩,
    .table "yearlySales" _ (by decide)⟩

/-- The first two columns change their ids and the third is written in lower case. In the order of
the names the second column comes first. -/
def salesNames : OrderedMap String Renaming :=
  ⟨[("AMOUNT", ⟨some "region", none⟩), ("YEAR", ⟨some "year", some "Year of sale"⟩),
    ("region", ⟨some "amount", none⟩)], by decide⟩

def salesPlaces : OrderedMap Nat Renaming :=
  ⟨[(0, ⟨some "amount", none⟩), (1, ⟨some "region", none⟩),
    (2, ⟨some "year", some "Year of sale"⟩)], by decide⟩

theorem sameColumns_yearlySales : yearlySales.schema.SameColumns salesNames salesPlaces where
  known := by decide
  once := by
    rw [RenamedOnce]
    decide
  same := by
    intro i new
    have amount : yearlySales.schema.index? "AMOUNT" = some 1 := by decide
    have year : yearlySales.schema.index? "YEAR" = some 2 := by decide
    have region : yearlySales.schema.index? "region" = some 0 := by decide
    constructor
    · intro mem
      simp only [salesPlaces, List.mem_cons, List.not_mem_nil, or_false] at mem
      rcases mem with equal | equal | equal
      · cases equal
        exact ⟨"region", by decide, region⟩
      · cases equal
        exact ⟨"AMOUNT", by decide, amount⟩
      · cases equal
        exact ⟨"YEAR", by decide, year⟩
    · rintro ⟨name, mem, found⟩
      simp only [salesNames, List.mem_cons, List.not_mem_nil, or_false] at mem
      rcases mem with equal | equal | equal
      · cases equal
        cases amount.symm.trans found
        decide
      · cases equal
        cases year.symm.trans found
        decide
      · cases equal
        cases region.symm.trans found
        decide

theorem mapColumns_agree_yearlySales :
    yearlySales.schema.SameColumns salesNames salesPlaces ∧
    ∃ a b, yearlySales.mapColumns salesNames = .ok a ∧ yearlySales.mapColumnsAt salesPlaces = .ok b ∧
      a.schema.columns = [⟨"amount", .text, "region"⟩, ⟨"region", .integer, "amount"⟩,
        ⟨"year", .integer, "Year of sale"⟩] ∧
      b.schema = a.schema ∧ b.sql = a.sql := by
  refine ⟨sameColumns_yearlySales, ?_⟩
  obtain ⟨⟨e, failed, -⟩ | ⟨a, b, byName, byPlace, shown, schema, text, -⟩, -⟩ :=
    yearlySales.mapColumns_agree sameColumns_yearlySales
  · cases failed
  · exact ⟨a, b, byName, byPlace, shown.trans (by decide), schema, text⟩

end Query

end Crosstab
