import Mathlib.Data.Finset.Union
import Crosstab.Proofs.Pivot.Opening

/-!
# Open paths as sets

The open paths are nothing but a finite set of paths that are not empty, which holds with each path
every path on the way to it. Edits change that set and leave no other trace.

* `OpenPaths.opened` is the set, `OpenPaths.eq_of_isOpen` says that it tells open paths apart;
* `OpenPaths.Edit.change` is what an edit does to a set; `OpenPaths.opened_edited` follows a run;
* `OpenPaths.edited_pathSet` is the statement.
-/

namespace Crosstab

namespace Forest

open PathKey (Before)

variable {f g : Forest} {k key : PathKey} {q : List PathKey}

/-! ## A forest is known by its open nodes -/

theorem child?_isSome_iff : (f.child? k).isSome = true ↔ k ∈ f.keys := by
  induction f with
  | leaf => simp [child?, keys]
  | node j below beside _ ih =>
    rw [keys, List.mem_cons, child?]
    by_cases same : k = j
    · simp [same]
    · rw [if_neg same, ih]
      simp [same]

theorem mem_keys_iff : k ∈ f.keys ↔ (find? [k] f).isSome = true := by
  rw [← child?_isSome_iff, find?]
  cases f.child? k <;> simp [find?]

theorem find?_node_self (below beside : Forest) :
    find? (k :: q) (node k below beside) = find? q below := by
  rw [find?, child?, if_pos rfl, Option.bind_some]

theorem find?_node_of_ne (below beside : Forest) (ne : k ≠ key) :
    find? (k :: q) (node key below beside) = find? (k :: q) beside := by
  rw [find?, find?, child?, if_neg ne]

/-- The first of some siblings is the one that none of the others comes before. -/
theorem first_unique {below beside inside others : Forest}
    (sortedLeft : (node k below beside).Sorted) (sortedRight : (node key inside others).Sorted)
    (same : ∀ i, i ∈ (node k below beside).keys ↔ i ∈ (node key inside others).keys) :
    k = key := by
  have left := (same k).1 List.mem_cons_self
  have right := (same key).2 List.mem_cons_self
  obtain rfl | later := List.mem_cons.1 left
  · rfl
  obtain rfl | earlier := List.mem_cons.1 right
  · rfl
  have before : Before k key := sortedLeft.1 key earlier
  exact absurd (before.trans (sortedRight.1 k later)) (Before.irrefl k)

/-- Two forests with the same open nodes are equal. -/
theorem eq_of_find? (sortedLeft : f.Sorted) (sortedRight : g.Sorted)
    (same : ∀ q, (find? q f).isSome = (find? q g).isSome) : f = g := by
  induction f generalizing g with
  | leaf =>
    by_contra other
    obtain ⟨q, nonempty, found⟩ := exists_find?_iff.2 (Ne.symm other)
    rw [← same q] at found
    exact nonempty (find?_leaf.1 found)
  | node k below beside ihBelow ihBeside =>
    cases g with
    | leaf =>
      have found : (find? [k] (node k below beside)).isSome = true :=
        mem_keys_iff.1 List.mem_cons_self
      rw [same [k]] at found
      cases find?_leaf.1 found
    | node key inside others =>
      have sameKeys : ∀ i, i ∈ (node k below beside).keys ↔ i ∈ (node key inside others).keys := by
        intro i
        rw [mem_keys_iff, mem_keys_iff, same [i]]
      obtain rfl := first_unique sortedLeft sortedRight sameKeys
      obtain ⟨firstLeft, sortedBelow, sortedBeside⟩ := sortedLeft
      obtain ⟨firstRight, sortedInside, sortedOthers⟩ := sortedRight
      have sameBelow : below = inside := by
        apply ihBelow sortedBelow sortedInside
        intro q
        rw [← find?_node_self below beside, same, find?_node_self]
      have sameBeside : beside = others := by
        apply ihBeside sortedBeside sortedOthers
        intro q
        cases q with
        | nil => rfl
        | cons i q =>
          by_cases here : i = k
          · -- Later siblings have other keys, so on neither side is there such a node.
            subst here
            have left : beside.child? i = none :=
              child?_eq_none fun mem => Before.irrefl i (firstLeft i mem)
            have right : others.child? i = none :=
              child?_eq_none fun mem => Before.irrefl i (firstRight i mem)
            rw [find?, find?, left, right]
          · rw [← find?_node_of_ne below beside here, same, find?_node_of_ne _ _ here]
      rw [sameBelow, sameBeside]

/-! ## There are finitely many -/

/-- The length of the longest path to an open node. -/
def height : Forest → Nat
  | leaf => 0
  | node _ below beside => max (below.height + 1) beside.height

theorem height_of_child? {below : Forest} (h : f.child? k = some below) :
    below.height < f.height := by
  induction f with
  | leaf => cases h
  | node j inside beside _ ih =>
    rw [height]
    unfold child? at h
    split at h
    · cases h
      omega
    · have := ih h
      omega

theorem length_le_height (h : (find? q f).isSome = true) : q.length ≤ f.height := by
  induction q generalizing f with
  | nil => exact Nat.zero_le _
  | cons k q ih =>
    rw [find?] at h
    cases found : f.child? k with
    | none => simp [found] at h
    | some below =>
      rw [found, Option.bind_some] at h
      have inside := ih h
      have lower := height_of_child? found
      rw [List.length_cons]
      omega

end Forest

namespace OpenPaths

variable {o : OpenPaths} {p q : List PathKey}

/-! ## The set of open paths -/

def opened (o : OpenPaths) : Finset (List PathKey) :=
  (o.shown o.forest.height).toFinset.erase []

theorem mem_opened : q ∈ o.opened ↔ o.isOpen q = true := by
  rw [opened, Finset.mem_erase, List.mem_toFinset, mem_shown_iff]
  constructor
  · rintro ⟨nonempty, empty | ⟨-, isOpen⟩⟩
    · exact absurd empty nonempty
    · exact isOpen
  · intro isOpen
    obtain ⟨nonempty, found⟩ := isOpen_eq_true_iff.1 isOpen
    exact ⟨nonempty, .inr ⟨Forest.length_le_height found, isOpen⟩⟩

/-- Open paths with the same open nodes are equal. -/
theorem eq_of_isOpen {other : OpenPaths} (same : ∀ q, o.isOpen q = other.isOpen q) : o = other := by
  have forests : o.forest = other.forest := by
    apply Forest.eq_of_find? o.sorted other.sorted
    intro q
    by_cases nonempty : q = []
    · rw [nonempty]
      rfl
    · rw [Bool.eq_iff_iff]
      have := same q
      rw [Bool.eq_iff_iff, isOpen_eq_true_iff, isOpen_eq_true_iff] at this
      simpa [nonempty] using this
  cases o
  cases other
  cases forests
  rfl

theorem opened_inj {other : OpenPaths} : o.opened = other.opened ↔ o = other := by
  constructor
  · intro same
    apply eq_of_isOpen
    intro q
    rw [Bool.eq_iff_iff, ← mem_opened, same, mem_opened]
  · rintro rfl
    rfl

theorem opened_eq_empty_iff : o.opened = ∅ ↔ o.isEmpty = true := by
  rw [isEmpty_iff, Finset.eq_empty_iff_forall_notMem]
  simp only [mem_opened, Bool.not_eq_true]

/-- Paths that can be open together: none is empty, and every path on the way to one of them is
among them. -/
structure PathSet (S : Finset (List PathKey)) : Prop where
  nonempty : ∀ q ∈ S, q ≠ []
  closed : ∀ q ∈ S, ∀ p, p ≠ [] → p <+: q → p ∈ S

theorem pathSet_opened (o : OpenPaths) : PathSet o.opened where
  nonempty _ mem := (isOpen_eq_true_iff.1 (mem_opened.1 mem)).1
  closed q mem p nonempty shorter := by
    have above := isOpen_of_prefix (mem_opened.1 mem) nonempty shorter
    exact mem_opened.2 above

/-! ## Edits -/

/-- One change of what is open, at the node that texts or pivot values name. -/
inductive Edit
  | openTexts (path : List String)
  | openValues (path : List Scalar)
  | closeTexts (path : List String)
  | closeValues (path : List Scalar)

def Edit.run (o : OpenPaths) : Edit → OpenPaths
  | .openTexts path => o.openPath (textPath path)
  | .openValues path => o.openPath (valuePath path)
  | .closeTexts path => o.closePath (textPath path)
  | .closeValues path => o.closePath (valuePath path)

/-- A set of paths with a path and every path on the way to it, except the empty one. -/
def withPath (S : Finset (List PathKey)) (path : List PathKey) : Finset (List PathKey) :=
  S ∪ path.inits.toFinset.erase []

/-- A set of paths without a path and its extensions. Without the empty path it is empty. -/
def withoutPath (S : Finset (List PathKey)) (path : List PathKey) : Finset (List PathKey) :=
  S.filter fun q => ¬ path <+: q

def Edit.change (S : Finset (List PathKey)) : Edit → Finset (List PathKey)
  | .openTexts path => withPath S (textPath path)
  | .openValues path => withPath S (valuePath path)
  | .closeTexts path => withoutPath S (textPath path)
  | .closeValues path => withoutPath S (valuePath path)

def edited (edits : List Edit) : OpenPaths := edits.foldl Edit.run empty

def pathsAfter (edits : List Edit) : Finset (List PathKey) := edits.foldl Edit.change ∅

theorem mem_withPath {S : Finset (List PathKey)} : q ∈ withPath S p ↔ q ∈ S ∨ q ≠ [] ∧ q <+: p := by
  rw [withPath, Finset.mem_union, Finset.mem_erase, List.mem_toFinset, List.mem_inits]

theorem mem_withoutPath {S : Finset (List PathKey)} :
    q ∈ withoutPath S p ↔ q ∈ S ∧ ¬ p <+: q := by
  rw [withoutPath, Finset.mem_filter]

theorem withoutPath_nil (S : Finset (List PathKey)) : withoutPath S [] = ∅ := by
  simp [withoutPath]

theorem opened_openPath (o : OpenPaths) (path : List PathKey) :
    (o.openPath path).opened = withPath o.opened path := by
  ext q
  rw [mem_opened, mem_withPath, mem_opened, isOpen_openPath, or_comm]

theorem opened_closePath (o : OpenPaths) (path : List PathKey) :
    (o.closePath path).opened = withoutPath o.opened path := by
  by_cases root : path = []
  · subst root
    rw [withoutPath_nil]
    exact opened_eq_empty_iff.2 rfl
  · ext q
    rw [mem_opened, mem_withoutPath, mem_opened, isOpen_closePath root]

/-- An edit does to the set of open paths what it says. -/
theorem opened_run (o : OpenPaths) (edit : Edit) : (edit.run o).opened = edit.change o.opened := by
  cases edit with
  | openTexts | openValues => exact opened_openPath o _
  | closeTexts | closeValues => exact opened_closePath o _

theorem opened_edited (edits : List Edit) : (edited edits).opened = pathsAfter edits := by
  suffices onward : ∀ o : OpenPaths, (edits.foldl Edit.run o).opened =
      edits.foldl Edit.change o.opened by
    rw [edited, onward, opened_eq_empty_iff.2 rfl, pathsAfter]
  intro o
  induction edits generalizing o with
  | nil => rfl
  | cons edit edits ih => rw [List.foldl_cons, List.foldl_cons, ih, opened_run]

/-! ## Every set of paths -/

/-- Every path of keys is named by values. -/
theorem valuePath_toScalar (path : List PathKey) : valuePath (path.map PathKey.toScalar) = path := by
  have own : PathKey.ofScalar ∘ PathKey.toScalar = id := by
    funext key
    cases key <;> rfl
  rw [valuePath, List.map_map, own, List.map_id]

def Edit.opening (path : List PathKey) : Edit := .openValues (path.map PathKey.toScalar)

theorem Edit.change_opening (S : Finset (List PathKey)) (path : List PathKey) :
    (Edit.opening path).change S = withPath S path := by
  rw [Edit.opening, Edit.change, valuePath_toScalar]

/-- Opening some paths, one after the other, adds what is on the way to any of them. -/
theorem mem_pathsAfter_opening {paths : List (List PathKey)} :
    q ∈ pathsAfter (paths.map .opening) ↔ q ≠ [] ∧ ∃ path ∈ paths, q <+: path := by
  suffices onward : ∀ S, q ∈ (paths.map Edit.opening).foldl Edit.change S ↔
      q ∈ S ∨ q ≠ [] ∧ ∃ path ∈ paths, q <+: path by
    rw [pathsAfter, onward]
    simp
  intro S
  induction paths generalizing S with
  | nil => simp
  | cons path paths ih =>
    rw [List.map_cons, List.foldl_cons, ih, Edit.change_opening, mem_withPath,
      List.exists_mem_cons_iff, or_assoc, ← and_or_left]

/-- Paths that can be open together are all that is open after each of them was opened. -/
theorem PathSet.exists_edits {S : Finset (List PathKey)} (h : PathSet S) :
    ∃ edits, pathsAfter edits = S := by
  refine ⟨S.toList.map .opening, ?_⟩
  ext q
  rw [mem_pathsAfter_opening]
  constructor
  · rintro ⟨nonempty, path, mem, shorter⟩
    exact h.closed path (Finset.mem_toList.1 mem) q nonempty shorter
  · intro mem
    exact ⟨h.nonempty q mem, q, Finset.mem_toList.2 mem, List.prefix_rfl⟩

/-- Open paths are exactly the finite sets of paths that are not empty and hold with each path every
path on the way to it. After any edits, a node is open if its path is in the set that the edits make
of the empty one, whether texts or values name it; open paths are equal if they have the same set,
whatever led to them; they are empty if their set is; and edits lead to each such set and to no
other. -/
theorem edited_pathSet :
    (∀ edits q, (edited edits).isOpen q = true ↔ q ∈ pathsAfter edits) ∧
    (∀ (o : OpenPaths) q, o.isOpen q = true ↔ q ∈ o.opened) ∧
    (∀ o other : OpenPaths, o = other ↔ o.opened = other.opened) ∧
    (∀ o : OpenPaths, o.isEmpty = true ↔ o.opened = ∅) ∧
    (∀ o : OpenPaths, PathSet o.opened) ∧
    ∀ S, PathSet S → ∃ edits, (edited edits).opened = S := by
  refine ⟨?_, fun _ _ => mem_opened.symm, fun _ _ => opened_inj.symm,
    fun _ => opened_eq_empty_iff.symm, pathSet_opened, ?_⟩
  · intro edits q
    rw [← opened_edited, mem_opened]
  · intro S h
    obtain ⟨edits, made⟩ := h.exists_edits
    exact ⟨edits, (opened_edited edits).trans made⟩

/-- The order of edits leaves no trace. -/
example : edited [.openValues [.text "north", .int 7], .openTexts ["7"], .closeTexts ["north", "7"]] =
    edited [.openValues [.int 7], .closeValues [.null], .openTexts ["north"]] := by decide

end OpenPaths

end Crosstab
