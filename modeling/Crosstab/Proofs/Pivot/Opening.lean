import Mathlib.Data.List.Infix
import Crosstab.Proofs.Pivot.Expansion

/-!
# What opening and closing change

Below the root, the open nodes are closed under prefixes: a node is open only if every node on the
way to it is. Opening a path adds exactly its prefixes; closing one takes away exactly itself and its
extensions.
-/

namespace Crosstab

namespace Forest

open PathKey (Before)

variable {f : Forest} {k key : PathKey} {p q : List PathKey}

/-! ## The children of one node -/

theorem child?_eq_none (h : k ∉ f.keys) : f.child? k = none := by
  rw [Option.eq_none_iff_forall_ne_some]
  intro below found
  exact h (keys_of_child? found)

theorem sorted_of_child? {below : Forest} (sorted : f.Sorted) (h : f.child? k = some below) :
    below.Sorted := by
  induction f with
  | leaf => cases h
  | node j inside beside _ ih =>
    obtain ⟨-, sortedInside, sortedBeside⟩ := sorted
    unfold child? at h
    split at h
    · cases h
      exact sortedInside
    · exact ih sortedBeside h

theorem child?_update_of_ne (change : Forest → Forest) (ne : k ≠ key) :
    (f.update key change).child? k = f.child? k := by
  induction f with
  | leaf => simp [update, child?, ne]
  | node j below beside _ ih =>
    unfold update
    split
    · next same =>
      subst same
      simp [child?, ne]
    · split
      · rw [child?, if_neg ne]
      · simp only [child?, ih]

theorem child?_update (sorted : f.Sorted) (change : Forest → Forest) :
    (f.update key change).child? key = some (change ((f.child? key).getD leaf)) := by
  induction f with
  | leaf => simp [update, child?]
  | node j below beside _ ih =>
    obtain ⟨first, -, sortedBeside⟩ := sorted
    unfold update
    split
    · next same =>
      subst same
      simp [child?]
    · next ne =>
      split
      · next before =>
        have absent : beside.child? key = none := by
          apply child?_eq_none
          intro mem
          exact Before.irrefl key (before.trans (first key mem))
        simp [child?, ne, absent]
      · simp only [child?, if_neg ne, ih sortedBeside]

theorem child?_modify (change : Forest → Forest) :
    (f.modify key change).child? k =
      if k = key then (f.child? key).map change else f.child? k := by
  induction f with
  | leaf => simp [modify, child?]
  | node j below beside _ ih =>
    unfold modify
    by_cases here : key = j
    · subst here
      by_cases same : k = key
      · simp [child?, same]
      · simp [child?, same]
    · rw [if_neg here, child?, child?, child?, ih, if_neg here]
      by_cases same : k = key
      · subst same
        simp [here]
      · simp [same]

theorem child?_remove_of_ne (ne : k ≠ key) : (f.remove key).child? k = f.child? k := by
  induction f with
  | leaf => rfl
  | node j below beside _ ih =>
    unfold remove
    split
    · next same =>
      subst same
      rw [child?, if_neg ne]
    · simp only [child?, ih]

theorem child?_remove (sorted : f.Sorted) : (f.remove key).child? key = none := by
  induction f with
  | leaf => rfl
  | node j below beside _ ih =>
    obtain ⟨first, -, sortedBeside⟩ := sorted
    unfold remove
    split
    · next same =>
      subst same
      apply child?_eq_none
      intro mem
      exact Before.irrefl _ (first _ mem)
    · next ne => rw [child?, if_neg ne, ih sortedBeside]

/-! ## Nodes along a path -/

theorem find?_leaf : (find? q leaf).isSome = true ↔ q = [] := by
  cases q <;> simp [find?, child?]

/-- Opening a path opens its prefixes, and nothing else. -/
theorem find?_openPath (sorted : f.Sorted) :
    (find? q (f.openPath p)).isSome = true ↔ q <+: p ∨ (find? q f).isSome = true := by
  induction p generalizing f q with
  | nil =>
    rw [openPath, List.prefix_nil]
    refine ⟨.inr, ?_⟩
    rintro (rfl | found)
    · rfl
    · exact found
  | cons key p ih =>
    cases q with
    | nil => simp [find?]
    | cons k q =>
      rw [openPath, find?, find?, List.cons_prefix_cons]
      by_cases same : k = key
      · subst same
        rw [child?_update sorted, Option.bind_some]
        cases found : f.child? k with
        | none =>
          rw [Option.getD_none, ih (f := leaf) trivial, find?_leaf]
          simp +contextual
        | some below =>
          rw [Option.getD_some, ih (sorted_of_child? sorted found)]
          simp
      · rw [child?_update_of_ne _ same]
        simp [same]

theorem closePath_cons (key next : PathKey) (p : List PathKey) (f : Forest) :
    f.closePath (key :: next :: p) = f.modify key (closePath (next :: p)) := rfl

/-- Closing a path closes its extensions, and nothing else. -/
theorem find?_closePath (sorted : f.Sorted) (nonempty : p ≠ []) :
    (find? q (f.closePath p)).isSome = true ↔ (find? q f).isSome = true ∧ ¬ p <+: q := by
  induction p generalizing f q with
  | nil => exact absurd rfl nonempty
  | cons key p ih =>
    cases q with
    | nil => simp [find?]
    | cons k q =>
      rw [find?, List.cons_prefix_cons]
      by_cases same : k = key
      · subst same
        cases p with
        | nil =>
          rw [closePath, find?, child?_remove sorted]
          simp
        | cons next p =>
          rw [closePath_cons, find?, child?_modify, if_pos rfl]
          cases found : f.child? k with
          | none => simp
          | some below =>
            have inside := ih (q := q) (sorted_of_child? sorted found) (List.cons_ne_nil _ _)
            simpa using inside
      · have other : ((f.closePath (key :: p)).child? k) = f.child? k := by
          cases p with
          | nil => exact child?_remove_of_ne same
          | cons next p => exact (child?_modify _).trans (if_neg same)
        rw [find?, other]
        simp [Ne.symm same]

/-- A node is open only if the nodes on the way to it are. -/
theorem find?_of_prefix (h : (find? q f).isSome = true) (shorter : p <+: q) :
    (find? p f).isSome = true := by
  induction p generalizing f q with
  | nil => rfl
  | cons key p ih =>
    cases q with
    | nil => cases List.prefix_nil.1 shorter
    | cons k q =>
      obtain ⟨rfl, rest⟩ := List.cons_prefix_cons.1 shorter
      rw [find?] at h ⊢
      cases found : f.child? key with
      | none => simp [found] at h
      | some below =>
        rw [found, Option.bind_some] at h
        exact ih h rest

/-- There is an open node exactly if there is one at the top. -/
theorem exists_find?_iff : (∃ q, q ≠ [] ∧ (find? q f).isSome = true) ↔ f ≠ leaf := by
  cases f with
  | leaf => simp +contextual [find?_leaf]
  | node key below beside =>
    constructor
    · intro _ same
      cases same
    · intro _
      exact ⟨[key], List.cons_ne_nil _ _, by simp [find?, child?]⟩

end Forest

namespace OpenPaths

variable {o : OpenPaths} {p q : List PathKey}

theorem isOpen_eq_true_iff :
    o.isOpen q = true ↔ q ≠ [] ∧ (o.forest.find? q).isSome = true := by
  simp [isOpen]

/-- Opening a path opens its prefixes, and nothing else. -/
theorem isOpen_openPath :
    (o.openPath p).isOpen q = true ↔ q ≠ [] ∧ q <+: p ∨ o.isOpen q = true := by
  rw [isOpen_eq_true_iff, isOpen_eq_true_iff, openPath, Forest.find?_openPath o.sorted, and_or_left]

/-- Closing a path closes its extensions, and nothing else. -/
theorem isOpen_closePath (nonempty : p ≠ []) :
    (o.closePath p).isOpen q = true ↔ o.isOpen q = true ∧ ¬ p <+: q := by
  rw [isOpen_eq_true_iff, isOpen_eq_true_iff, closePath, Forest.find?_closePath o.sorted nonempty,
    and_assoc]

theorem isOpen_of_prefix (h : o.isOpen q = true) (nonempty : p ≠ []) (shorter : p <+: q) :
    o.isOpen p = true := by
  rw [isOpen_eq_true_iff] at h ⊢
  exact ⟨nonempty, Forest.find?_of_prefix h.2 shorter⟩

/-- Nothing is open exactly if no path is. -/
theorem isEmpty_iff : o.isEmpty = true ↔ ∀ q, o.isOpen q = false := by
  have some : o.isEmpty = false ↔ ∃ q, o.isOpen q = true := by
    simp only [isOpen_eq_true_iff, Forest.exists_find?_iff]
    simp [isEmpty]
  rw [← Bool.not_eq_false, some, not_exists]
  simp only [Bool.not_eq_true]

end OpenPaths

end Crosstab
