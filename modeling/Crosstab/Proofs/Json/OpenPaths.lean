import Crosstab.Json.Pivot
import Crosstab.Proofs.Json.Lookup
import Crosstab.Proofs.Pivot.Entries

/-!
# Open paths in JSON

A list of entries is read as what the entries stand for, whatever their order and however often a
key is repeated. Open paths are written as entries in the order of their keys, and read back from
them.

* `Json.Lists` says which entries a draft lists: the value of an entry is its key, null or nothing
  at all for the null group, and its children are a list again, or nothing;
* `OpenPaths.readFrom_of_ofDraft` is reading, with a bound for the height of what is read;
* `OpenPaths.ofDraft_toJson` is reading back, and `OpenPaths.lists_toJson` says that the entries that
  are written are the nodes.
-/

namespace Crosstab

namespace Json

open Draft (ofJson ofJsons ofEntries)

/-- What is given for the value of an entry is a key. -/
inductive IsKey : Option Draft → PathKey → Prop
  | missing : IsKey none none
  | null : IsKey (some .null) none
  | text (s : String) : IsKey (some (.string (some s))) (some s)

/-- What an item of a list of entries gives for a name. An entry may be an object or an array; the
first item of an array is the value and the second the children. -/
def given (d : Draft) (name : String) : Option Draft := d.field? ["value", "children"] name

mutual

/-- What is given for the children of an entry, or for a whole text, lists entries. -/
inductive Lists : Option Draft → List Entry → Prop
  | missing : Lists none []
  | list {items : List Draft} {entries : List Entry} (each : ListsAll items entries) :
      Lists (some (.array items)) entries

/-- The items are entries. -/
inductive ListsAll : List Draft → List Entry → Prop
  | nil : ListsAll [] []
  | cons {d : Draft} {items : List Draft} {key : PathKey} {children entries : List Entry}
      (value : IsKey (given d "value") key) (below : Lists (given d "children") children)
      (rest : ListsAll items entries) : ListsAll (d :: items) (⟨key, children⟩ :: entries)

end

theorem IsKey.unique {d : Option Draft} {key other : PathKey} (h : IsKey d key)
    (h' : IsKey d other) : key = other := by
  cases h <;> cases h' <;> rfl

mutual

/-- A text does not list two lists of entries. -/
theorem Lists.unique {d : Option Draft} {entries others : List Entry} :
    Lists d entries → Lists d others → entries = others
  | .missing, .missing => rfl
  | .list each, .list each' => each.unique each'

theorem ListsAll.unique {items : List Draft} {entries others : List Entry} :
    ListsAll items entries → ListsAll items others → entries = others
  | .nil, .nil => rfl
  | .cons value below rest, .cons value' below' rest' => by
    rw [value.unique value', below.unique below', rest.unique rest']

end

/-- A text that may be missing is read back. -/
theorem Draft.optional_orNull (value : Option String) :
    optional text (ofJson (orNull .string value)) = .ok value := by
  cases value <;> rfl

theorem isKey_of_optional {d : Draft} {key : PathKey} (h : Draft.optional Draft.text d = .ok key) :
    IsKey (some d) key := by
  match d with
  | .null => cases h; exact .null
  | .string (some s) => cases h; exact .text s
  | .string none | .bool _ | .number _ | .array _ | .object _ | .fault => cases h

end Json

open Json (Draft Fields Lists ListsAll IsKey given)
open Json.Draft (ofJson ofJsons)

namespace OpenPaths

/-! ## Reading -/

/-- The fields of an entry whose children nest at most `levels` arrays and objects. -/
def entryFields (levels : Nat) := Fields.nullable "value" Draft.text <|
  .may "children" (ofDraft levels) empty .done

theorem nodup_entryFields (levels : Nat) : (entryFields levels).names.Nodup := by
  simp [entryFields, Fields.names]

def readEntry (levels : Nat) (d : Draft) : Json.Draft.Decoded (PathKey × OpenPaths) := do
  let (key, below, ()) ← (entryFields levels).read d
  return (key, below)

/-- A list with items is read item by item. -/
theorem ofDraft_items (levels : Nat) {items : List Draft} (nonempty : items ≠ []) :
    ofDraft (levels + 2) (.array items) = (items.mapM (readEntry levels)).map ofEntries := by
  cases items with
  | nil => exact absurd rfl nonempty
  | cons d items =>
    rw [ofDraft]
    · show (d :: items).mapM (readEntry levels) >>= _ = _
      cases (d :: items).mapM (readEntry levels) <;> rfl
    · nofun

/-- A draft that is read nests in the levels that there are, and it is a list: without any item, or
with items that nest in two levels less. -/
theorem ofDraft_cases {levels : Nat} {d : Draft} {p : OpenPaths} (h : ofDraft levels d = .ok p) :
    d = .array [] ∧ p = empty ∨ ∃ n items nodes, levels = n + 2 ∧ d = .array items ∧
      p = ofEntries nodes ∧ List.Forall₂ (fun d node => readEntry n d = .ok node) items nodes := by
  match d with
  | .array [] =>
    match levels with
    | 0 => cases h
    | _ + 1 =>
      cases h
      exact .inl ⟨rfl, rfl⟩
  | .array (d :: items) =>
    match levels with
    | 0 | 1 => cases h
    | n + 2 =>
      rw [ofDraft_items n (List.cons_ne_nil _ _)] at h
      obtain ⟨nodes, read, rfl⟩ := map_eq_ok_iff.1 h
      exact .inr ⟨n, _, nodes, rfl, rfl, rfl, mapM_eq_ok_iff.1 read⟩
  | .null | .bool _ | .number _ | .string _ | .object _ | .fault =>
    match levels with
    | 0 | 1 | _ + 2 => cases h

/-- The parts of a node that was read. -/
theorem readEntry_cases {n : Nat} {d : Draft} {node : PathKey × OpenPaths}
    (h : readEntry n d = .ok node) : IsKey (given d "value") node.1 ∧
      (given d "children" = none ∧ node.2 = empty ∨
        ∃ c, given d "children" = some c ∧ ofDraft n c = .ok node.2) := by
  obtain ⟨⟨key, below, ⟨⟩⟩, read, made⟩ := bind_eq_ok_iff.1 h
  cases made
  obtain ⟨value, children, -⟩ := (entryFields n).found_of_read (nodup_entryFields n) read
  refine ⟨?_, children⟩
  change given d "value" = none ∧ key = none ∨ ∃ v, given d "value" = some v ∧ _ at value
  rcases value with ⟨missing, rfl⟩ | ⟨v, found, decoded⟩
  · rw [missing]
    exact .missing
  · rw [found]
    exact Json.isKey_of_optional decoded

/-- Open paths were read from listed entries: they are what these stand for, and no higher than two
levels of arrays and objects for each level of nodes allow. -/
def ReadFrom (levels : Nat) (d : Option Draft) (p : OpenPaths) : Prop :=
  ∃ entries, Lists d entries ∧ p.StandsFor entries ∧ 2 * p.forest.height ≤ levels

theorem readFrom_empty (levels : Nat) {d : Option Draft} (h : Lists d []) :
    ReadFrom levels d empty :=
  ⟨[], h, standsFor_ofEntries .nil, Nat.zero_le _⟩

theorem readFrom_items {n : Nat} (inside : ∀ {d p}, ofDraft n d = .ok p → ReadFrom n (some d) p)
    {items : List Draft} {nodes : List (PathKey × OpenPaths)}
    (read : List.Forall₂ (fun d node => readEntry n d = .ok node) items nodes) :
    ∃ entries, ListsAll items entries ∧
      List.Forall₂ (fun e node => e.key = node.1 ∧ node.2.StandsFor e.children) entries nodes ∧
      ∀ node ∈ nodes, 2 * node.2.forest.height ≤ n := by
  induction read with
  | nil => exact ⟨[], .nil, .nil, nofun⟩
  | @cons d node items nodes first _ rest =>
    obtain ⟨entries, others, agree, lower⟩ := rest
    obtain ⟨value, below⟩ := readEntry_cases first
    have children : ReadFrom n (given d "children") node.2 := by
      rcases below with ⟨missing, none⟩ | ⟨c, found, decoded⟩
      · rw [missing, none]
        exact readFrom_empty n .missing
      · rw [found]
        exact inside decoded
    obtain ⟨children, listed, stands, low⟩ := children
    exact ⟨⟨node.1, children⟩ :: entries, .cons value listed others, .cons ⟨rfl, stands⟩ agree,
      List.forall_mem_cons.2 ⟨low, lower⟩⟩

/-- What is read was read from listed entries. The induction is on the levels. -/
theorem readFrom_of_ofDraft {levels : Nat} {d : Draft} {p : OpenPaths}
    (h : ofDraft levels d = .ok p) : ReadFrom levels (some d) p := by
  induction levels using Nat.strongRecOn generalizing d p with
  | ind levels ih =>
    rcases ofDraft_cases h with ⟨rfl, rfl⟩ | ⟨n, items, nodes, rfl, rfl, rfl, read⟩
    · exact readFrom_empty levels (.list .nil)
    · obtain ⟨entries, listed, agree, lower⟩ := readFrom_items (ih n (by omega)) read
      have high : (ofEntries nodes).forest.height ≤ n / 2 + 1 := by
        apply height_ofEntries_le
        intro node mem
        have := lower node mem
        omega
      exact ⟨entries, .list listed, standsFor_ofEntries agree, by omega⟩

/-! ## Writing -/

def entryJson (key : PathKey) (below : Forest) : Json :=
  .object (("value", key.toJson) ::
    if below = .leaf then [] else [("children", .array below.toJsons)])

theorem toJsons_node (key : PathKey) (below beside : Forest) :
    (Forest.node key below beside).toJsons = entryJson key below :: beside.toJsons := rfl

theorem toJsons_eq (f : Forest) : f.toJsons = f.children.map fun c => entryJson c.1 c.2 := by
  induction f with
  | leaf => rfl
  | node key below beside _ ih => rw [toJsons_node, Forest.children, List.map_cons, ih]

theorem isKey_toJson (key : PathKey) : IsKey (some (ofJson key.toJson)) key := by
  cases key with
  | none => exact .null
  | some s => exact .text s

theorem given_value (key : PathKey) (below : Forest) :
    given (ofJson (entryJson key below)) "value" = some (ofJson key.toJson) := by
  simp [given, entryJson, ofJson, Json.Draft.ofEntries, Draft.field?, Draft.lookup_cons]

theorem given_children (key : PathKey) (below : Forest) :
    given (ofJson (entryJson key below)) "children" =
      if below = .leaf then none else some (ofJson (.array below.toJsons)) := by
  by_cases empty : below = .leaf
  · simp [given, entryJson, ofJson, Json.Draft.ofEntries, Draft.field?, Draft.lookup, empty]
  · simp [given, entryJson, ofJson, Json.Draft.ofEntries, Draft.field?, Draft.lookup_cons, empty]

/-- The entries of the list that is written are the nodes. -/
theorem listsAll_toJsons (f : Forest) : ListsAll (ofJsons f.toJsons) f.entries := by
  induction f with
  | leaf => exact .nil
  | node key below beside ihBelow ihBeside =>
    rw [toJsons_node, ofJsons, Forest.entries]
    refine .cons (given_value key below ▸ isKey_toJson key) ?_ ihBeside
    rw [given_children]
    by_cases empty : below = .leaf
    · rw [if_pos empty, empty]
      exact .missing
    · rw [if_neg empty]
      exact .list ihBelow

theorem lists_toJson (p : OpenPaths) : Lists (some (ofJson p.toJson)) p.forest.entries :=
  .list (listsAll_toJsons p.forest)

/-- The open paths that are written have no numbers. -/
theorem numbers_toJsons {P : Json.Number → Prop} (f : Forest) :
    ∀ item ∈ f.toJsons, (ofJson item).Numbers P := by
  induction f with
  | leaf => nofun
  | node key below beside ihBelow ihBeside =>
    refine List.forall_mem_cons.2 ⟨?_, ihBeside⟩
    have value : (ofJson key.toJson).Numbers P := by cases key <;> trivial
    by_cases empty : below = .leaf
    · simp [empty, value]
    · simpa [empty, value] using ihBelow

theorem numbers_toJson {P : Json.Number → Prop} (p : OpenPaths) : (ofJson p.toJson).Numbers P :=
  Draft.numbers_ofJson_array.2 (numbers_toJsons p.forest)

/-! ## Reading back -/

/-- A node is read back from its entry, if what is below it is. -/
theorem readEntry_entryJson {n : Nat} {key : PathKey} {below : OpenPaths}
    (inside : below.forest ≠ .leaf → ofDraft n (ofJson below.toJson) = .ok below) :
    readEntry n (ofJson (entryJson key below.forest)) = .ok (key, below) := by
  have read : (entryFields n).read (ofJson (entryJson key below.forest)) = .ok (key, below, ()) := by
    apply Fields.read_of_writes _ (nodup_entryFields n)
    refine .inr ⟨_, _, rfl, Draft.optional_orNull key, ?_⟩
    by_cases empty : below.forest = .leaf
    · rw [if_pos empty]
      exact .inl ⟨eq_of_forest empty, rfl⟩
    · rw [if_neg empty]
      exact .inr ⟨_, _, rfl, inside empty, rfl⟩
  rw [readEntry, read]
  rfl

/-- The nodes at the top are read back, if those that have something below them are. -/
theorem mapM_readEntry {n : Nat} {p : OpenPaths}
    (inside : ∀ below : OpenPaths, below.forest ≠ .leaf → below.forest.height < p.forest.height →
      ofDraft n (ofJson below.toJson) = .ok below) :
    ((p.forest.children.map fun c => ofJson (entryJson c.1 c.2)).mapM (readEntry n)).map ofEntries =
      .ok p := by
  have each : ∀ c ∈ p.forest.children, ∃ node : PathKey × OpenPaths,
      readEntry n (ofJson (entryJson c.1 c.2)) = .ok node ∧ c = (node.1, node.2.forest) := by
    intro c mem
    have lower := Forest.height_of_mem_children mem
    obtain ⟨below, same⟩ : ∃ below : OpenPaths, below.forest = c.2 :=
      ⟨⟨c.2, Forest.sorted_of_mem_children p.sorted mem⟩, rfl⟩
    rw [← same] at lower ⊢
    refine ⟨(c.1, below), readEntry_entryJson ?_, Prod.ext rfl same.symm⟩
    intro nonempty
    exact inside below nonempty lower
  obtain ⟨nodes, read⟩ := exists_forall₂ each
  have items : (p.forest.children.map fun c => ofJson (entryJson c.1 c.2)).mapM (readEntry n) =
      .ok nodes := by
    rw [mapM_eq_ok_iff, List.forall₂_map_left_iff]
    exact read.imp fun _ _ h => h.1
  have paired : p.forest.children.map id = nodes.map fun node => (node.1, node.2.forest) :=
    map_eq_map_of_forall₂ read fun _ _ h => h.2
  rw [List.map_id] at paired
  rw [items, Except.map, ofEntries_eq paired.symm]

/-- Open paths are read back from what they are written as, if there are two levels of arrays and
objects for each level of nodes. The induction is on the levels. -/
theorem ofDraft_toJson {levels : Nat} (p : OpenPaths) (pos : 0 < levels)
    (deep : 2 * p.forest.height ≤ levels) : ofDraft levels (ofJson p.toJson) = .ok p := by
  induction levels using Nat.strongRecOn generalizing p with
  | ind levels ih =>
    by_cases nothing : p.forest = .leaf
    · obtain ⟨n, rfl⟩ : ∃ n, levels = n + 1 := ⟨levels - 1, by omega⟩
      rw [eq_of_forest (q := empty) nothing]
      rfl
    · have high := Forest.height_pos nothing
      obtain ⟨n, rfl⟩ : ∃ n, levels = n + 2 := ⟨levels - 2, by omega⟩
      have items : ofJson p.toJson =
          .array (p.forest.children.map fun c => ofJson (entryJson c.1 c.2)) := by
        rw [toJson, toJsons_eq, ofJson, Json.Draft.ofJsons_eq_map, List.map_map]
        rfl
      have nonempty : p.forest.children.map (fun c => ofJson (entryJson c.1 c.2)) ≠ [] := by
        cases f : p.forest with
        | leaf => exact absurd f nothing
        | node key below beside => exact List.cons_ne_nil _ _
      rw [items, ofDraft_items n nonempty]
      apply mapM_readEntry
      intro below higher lower
      have := Forest.height_pos higher
      exact ih n (by omega) below (by omega) (by omega)

end OpenPaths

end Crosstab
