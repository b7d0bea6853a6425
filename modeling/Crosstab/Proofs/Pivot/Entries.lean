import Crosstab.Proofs.Maps
import Crosstab.Proofs.Pivot.OpenSets
import Crosstab.Proofs.Text.Bytes

/-!
# Open paths made of entries

Open paths are written as entries: a key and the entries below it. Entries may come in any order and
a key may come more than once; then its last entry counts, with all that is below, and the others
leave no trace.
-/

namespace Crosstab

/-- A node as it is written: its key and the entries below it. -/
structure Entry where
  key : PathKey
  children : List Entry

namespace Entry

/-- The entries that a path leads to. At every level the last entry of a key counts. -/
def at? : List PathKey → List Entry → Option (List Entry)
  | [], entries => some entries
  | k :: path, entries => (entries.reverse.find? (·.key = k)).bind fun e => at? path e.children

/-- One key comes before another: the null group before all texts, and of two texts the one whose
bytes come first. -/
def Precedes : PathKey → PathKey → Prop
  | none, some _ => True
  | some a, some b => Text.bytes a < Text.bytes b
  | _, none => False

/-- The entries stand in the order of their keys, and so do those below each. -/
inductive Ordered : List Entry → Prop
  | mk {entries : List Entry} (order : entries.Pairwise fun a b => Precedes a.key b.key)
      (inside : ∀ e ∈ entries, Ordered e.children) : Ordered entries

theorem precedes_of_before {a b : PathKey} (h : PathKey.Before a b) : Precedes a b := by
  cases a with
  | none =>
    cases b with
    | none => cases h
    | some b => trivial
  | some a =>
    cases b with
    | none => cases h
    | some b => exact Text.bytes_lt h

end Entry

/-! ## The nodes of a forest -/

namespace Forest

variable {f g : Forest} {k : PathKey}

theorem keys_eq (f : Forest) : f.keys = f.children.map (·.1) := by
  induction f with
  | leaf => rfl
  | node key below beside _ ih => rw [keys, children, List.map_cons, ih]

theorem nodup_keys (sorted : f.Sorted) : f.keys.Nodup := by
  induction f with
  | leaf => exact List.nodup_nil
  | node key below beside _ ih =>
    obtain ⟨first, -, others⟩ := sorted
    refine List.nodup_cons.2 ⟨fun mem => ?_, ih others⟩
    exact PathKey.Before.irrefl key (first key mem)

theorem child?_eq_find? (f : Forest) (k : PathKey) :
    f.child? k = (f.children.find? (·.1 = k)).map (·.2) := by
  induction f with
  | leaf => rfl
  | node key below beside _ ih =>
    rw [child?, children]
    by_cases here : k = key
    · rw [if_pos here, List.find?_cons_of_pos (by simpa using here.symm)]
      rfl
    · rw [if_neg here, List.find?_cons_of_neg (by simpa using Ne.symm here), ih]

/-- Two forests with the same children are equal. -/
theorem eq_of_child? (sortedLeft : f.Sorted) (sortedRight : g.Sorted)
    (same : ∀ k, f.child? k = g.child? k) : f = g := by
  apply eq_of_find? sortedLeft sortedRight
  intro path
  cases path with
  | nil => rfl
  | cons k path => rw [find?, find?, same]

theorem sorted_of_mem_children {c : PathKey × Forest} (sorted : f.Sorted) (h : c ∈ f.children) :
    c.2.Sorted := by
  induction f with
  | leaf => cases h
  | node key below beside _ ih =>
    obtain ⟨-, inside, others⟩ := sorted
    rcases List.mem_cons.1 h with rfl | h
    · exact inside
    · exact ih others h

theorem height_of_mem_children {c : PathKey × Forest} (h : c ∈ f.children) :
    c.2.height < f.height := by
  induction f with
  | leaf => cases h
  | node key below beside _ ih =>
    rw [height]
    rcases List.mem_cons.1 h with rfl | h
    · exact Nat.lt_of_lt_of_le (Nat.lt_succ_self _) (Nat.le_max_left _ _)
    · exact Nat.lt_of_lt_of_le (ih h) (Nat.le_max_right _ _)

theorem height_pos (h : f ≠ leaf) : 0 < f.height := by
  cases f with
  | leaf => exact absurd rfl h
  | node key below beside => exact Nat.lt_of_lt_of_le (Nat.succ_pos _) (Nat.le_max_left _ _)

theorem height_update_le {change : Forest → Forest} {n : Nat} (before : f.height ≤ n)
    (changed : ∀ below, (change below).height < n) : (f.update k change).height ≤ n := by
  induction f with
  | leaf =>
    have := changed leaf
    rw [update, height]
    exact Nat.max_le.2 ⟨this, Nat.zero_le _⟩
  | node key below beside _ ih =>
    obtain ⟨low, others⟩ := Nat.max_le.1 before
    unfold update
    split
    · exact Nat.max_le.2 ⟨changed below, others⟩
    · split
      · exact Nat.max_le.2 ⟨changed leaf, before⟩
      · exact Nat.max_le.2 ⟨low, ih others⟩

def entries : Forest → List Entry
  | leaf => []
  | node key below beside => ⟨key, below.entries⟩ :: beside.entries

theorem keys_entries (f : Forest) : f.entries.map Entry.key = f.keys := by
  induction f with
  | leaf => rfl
  | node key below beside _ ih => rw [entries, List.map_cons, ih, keys]

/-- The nodes stand in the order of their keys. -/
theorem ordered_entries (sorted : f.Sorted) : Entry.Ordered f.entries := by
  induction f with
  | leaf => exact .mk .nil nofun
  | node key below beside ihBelow ihBeside =>
    obtain ⟨first, sortedBelow, sortedBeside⟩ := sorted
    have .mk order inside := ihBeside sortedBeside
    refine .mk (List.pairwise_cons.2 ⟨?_, order⟩) (List.forall_mem_cons.2 ⟨?_, inside⟩)
    · intro e he
      have mem : e.key ∈ beside.keys := keys_entries beside ▸ List.mem_map_of_mem he
      exact Entry.precedes_of_before (first _ mem)
    · exact ihBelow sortedBelow

end Forest

/-! ## What entries stand for -/

namespace OpenPaths

variable {nodes : List (PathKey × OpenPaths)} {k : PathKey}

theorem eq_of_forest {p q : OpenPaths} (h : p.forest = q.forest) : p = q := by
  cases p
  cases q
  cases h
  rfl

/-- Of the nodes with a key the last counts. -/
theorem child?_ofEntries (nodes : List (PathKey × OpenPaths)) (k : PathKey) :
    (ofEntries nodes).forest.child? k = (nodes.reverse.find? (·.1 = k)).map (·.2.forest) := by
  induction nodes using List.reverseRecOn with
  | nil => rfl
  | append_singleton nodes n ih =>
    have last : ofEntries (nodes ++ [n]) = (ofEntries nodes).put n.1 n.2 := by
      rw [ofEntries, List.foldl_append]
      rfl
    rw [last, put, List.reverse_append, List.reverse_singleton, List.singleton_append]
    by_cases here : n.1 = k
    · subst here
      rw [Forest.child?_update (ofEntries nodes).sorted, List.find?_cons_of_pos (by simp)]
      rfl
    · rw [Forest.child?_update_of_ne _ (Ne.symm here), ih,
        List.find?_cons_of_neg (by simpa using here)]

theorem height_ofEntries_le {h : Nat} (each : ∀ n ∈ nodes, n.2.forest.height < h) :
    (ofEntries nodes).forest.height ≤ h := by
  induction nodes using List.reverseRecOn with
  | nil => exact Nat.zero_le _
  | append_singleton nodes n ih =>
    obtain ⟨before, last⟩ := List.forall_mem_append.1 each
    rw [ofEntries, List.foldl_append]
    exact Forest.height_update_le (ih before) fun _ => last n (List.mem_singleton_self n)

theorem find?_reverse {β : Type} {l : List (PathKey × β)} (once : (l.map (·.1)).Nodup)
    (k : PathKey) : l.reverse.find? (·.1 = k) = l.find? (·.1 = k) := by
  induction l with
  | nil => rfl
  | cons a l ih =>
    obtain ⟨new, once⟩ := List.nodup_cons.1 once
    rw [List.reverse_cons, List.find?_append, ih once]
    by_cases here : a.1 = k
    · have none : l.find? (·.1 = k) = none :=
        OrderedMap.find?_eq_none_of_not_mem (here ▸ new)
      simp [none, here]
    · simp [here]

/-- The nodes at the top put together again. -/
theorem ofEntries_eq {p : OpenPaths} {nodes : List (PathKey × OpenPaths)}
    (same : nodes.map (fun n => (n.1, n.2.forest)) = p.forest.children) : ofEntries nodes = p := by
  have once : (nodes.map (·.1)).Nodup := by
    have keys : nodes.map (·.1) = p.forest.keys := by
      rw [Forest.keys_eq, ← same, List.map_map]
      rfl
    rw [keys]
    exact Forest.nodup_keys p.sorted
  have forests : (ofEntries nodes).forest = p.forest := by
    apply Forest.eq_of_child? (ofEntries nodes).sorted p.sorted
    intro k
    rw [child?_ofEntries, find?_reverse once, Forest.child?_eq_find?, ← same, List.find?_map,
      Option.map_map]
    rfl
  exact eq_of_forest forests

/-- Open paths are what some entries stand for: there is a node at a path exactly if the path leads
to entries, and on the level below it there is one node for each key that these have. -/
def StandsFor (p : OpenPaths) (entries : List Entry) : Prop :=
  ∀ path, Option.Rel
    (fun level below => below.keys.Nodup ∧ ∀ k, k ∈ below.keys ↔ ∃ e ∈ level, e.key = k)
    (Entry.at? path entries) (p.forest.find? path)

/-- The last members of two lists that are found, for lists that agree member by member. -/
theorem rel_find? {α β : Type} {R : α → β → Prop} {p : α → Bool} {q : β → Bool} {l : List α}
    {r : List β} (each : List.Forall₂ R l r) (agree : ∀ a b, R a b → p a = q b) :
    Option.Rel R (l.find? p) (r.find? q) := by
  induction each with
  | nil => exact .none
  | @cons a b l r first _ ih =>
    by_cases found : p a = true
    · rw [List.find?_cons_of_pos found, List.find?_cons_of_pos (agree a b first ▸ found)]
      exact .some first
    · rw [List.find?_cons_of_neg found, List.find?_cons_of_neg (agree a b first ▸ found)]
      exact ih

/-- What holds below each entry holds of the level. -/
theorem standsFor_ofEntries {entries : List Entry}
    (each : List.Forall₂ (fun e n => e.key = n.1 ∧ n.2.StandsFor e.children) entries nodes) :
    (ofEntries nodes).StandsFor entries := by
  intro path
  cases path with
  | nil =>
    refine .some ⟨Forest.nodup_keys (ofEntries nodes).sorted, fun k => ?_⟩
    have same : entries.map Entry.key = nodes.map (·.1) :=
      map_eq_map_of_forall₂ each fun _ _ h => h.1
    have written : (∃ e ∈ entries, e.key = k) ↔ ∃ n ∈ nodes, n.1 = k := by
      rw [← List.mem_map, same, List.mem_map]
    rw [← Forest.child?_isSome_iff, child?_ofEntries, Option.isSome_map, List.find?_isSome, written]
    simp only [List.mem_reverse, decide_eq_true_eq]
  | cons k path =>
    have found : Option.Rel (fun e n => e.key = n.1 ∧ n.2.StandsFor e.children)
        (entries.reverse.find? (·.key = k)) (nodes.reverse.find? (·.1 = k)) := by
      apply rel_find? (List.forall₂_reverse_iff.2 each)
      rintro e n ⟨same, -⟩
      rw [same]
    rw [Entry.at?, Forest.find?, child?_ofEntries]
    generalize entries.reverse.find? (·.key = k) = e at found
    generalize nodes.reverse.find? (·.1 = k) = n at found
    cases found with
    | none => exact .none
    | some both => exact both.2 path

end OpenPaths

end Crosstab
