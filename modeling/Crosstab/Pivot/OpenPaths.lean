import Crosstab.Scalar

/-!
# Open paths

Which nodes of a pivot tree are open. A node is named by the path of pivot values that leads to it;
opening a node opens every node on the way, and closing it closes everything below.

The nodes form a forest: each node has the nodes below it and the nodes beside it. Siblings stand in
the order of their keys, the group of null values first, and this order is part of the type; so open
paths with the same open nodes are equal.
-/

namespace Crosstab

/-- The value that a group of rows has in common, as a text; none is the group of null values. -/
abbrev PathKey := Option String

namespace PathKey

/-- The order of siblings: the group of null values first, then by the characters of the text. -/
def Before : PathKey → PathKey → Prop
  | none, some _ => True
  | some a, some b => a < b
  | _, none => False

instance : (a b : PathKey) → Decidable (Before a b)
  | none, some _ => .isTrue trivial
  | some a, some b => inferInstanceAs (Decidable (a < b))
  | none, none => .isFalse id
  | some _, none => .isFalse id

theorem Before.trans {a b c : PathKey} (h : Before a b) (h' : Before b c) : Before a c := by
  cases b with
  | none => cases a <;> exact h.elim
  | some y =>
    cases c with
    | none => exact h'.elim
    | some z =>
      cases a with
      | none => trivial
      | some x =>
        have hx : x < y := h
        have hz : y < z := h'
        exact String.lt_trans hx hz

theorem Before.irrefl (a : PathKey) : ¬ Before a a := by
  cases a with
  | none => exact id
  | some s => exact String.lt_irrefl s

theorem Before.total {a b : PathKey} (h : a ≠ b) (h' : ¬ Before a b) : Before b a := by
  cases a with
  | none => cases b <;> simp_all [Before]
  | some a =>
    cases b with
    | none => trivial
    | some b =>
      have : ¬ a < b := h'
      rcases Decidable.em (b < a) with g | g
      · exact g
      · exact absurd (congrArg some (String.le_antisymm (String.not_lt.1 g) (String.not_lt.1 this)))
          h

/-- The key of a pivot value: its text, or what a person sees of it. -/
def ofScalar : Scalar → PathKey
  | .null => none
  | .text s => some s
  | other => some other.display

/-- The pivot value of a key: a text or null. -/
def toScalar : PathKey → Scalar
  | none => .null
  | some s => .text s

end PathKey

/-- Nodes with the nodes below each and the siblings after it. -/
inductive Forest
  | leaf
  | node (key : PathKey) (below beside : Forest)
  deriving DecidableEq

namespace Forest

open PathKey (Before)

def keys : Forest → List PathKey
  | leaf => []
  | node key _ beside => key :: beside.keys

/-- Siblings stand in the order of their keys, at every depth. -/
def Sorted : Forest → Prop
  | leaf => True
  | node key below beside => (∀ k ∈ beside.keys, Before key k) ∧ below.Sorted ∧ beside.Sorted

/-- The nodes at the top and the nodes below each. -/
def children : Forest → List (PathKey × Forest)
  | leaf => []
  | node key below beside => (key, below) :: beside.children

def child? (key : PathKey) : Forest → Option Forest
  | leaf => none
  | node k below beside => if key = k then some below else child? key beside

/-- Changes what is below the node with a key, which is made if there is none. -/
def update (key : PathKey) (change : Forest → Forest) : Forest → Forest
  | leaf => node key (change leaf) leaf
  | node k below beside =>
    if key = k then node k (change below) beside
    else if Before key k then node key (change leaf) (node k below beside)
    else node k below (update key change beside)

/-- Changes what is below the node with a key, if there is one. -/
def modify (key : PathKey) (change : Forest → Forest) : Forest → Forest
  | leaf => leaf
  | node k below beside =>
    if key = k then node k (change below) beside else node k below (modify key change beside)

/-- Takes out the node with a key. -/
def remove (key : PathKey) : Forest → Forest
  | leaf => leaf
  | node k below beside => if key = k then beside else node k below (remove key beside)

/-- Opens the node at a path and every node on the way. -/
def openPath : List PathKey → Forest → Forest
  | [], f => f
  | key :: path, f => update key (openPath path) f

/-- Closes the node at a path and everything below it; the empty path closes all. -/
def closePath : List PathKey → Forest → Forest
  | [], _ => leaf
  | [key], f => remove key f
  | key :: path, f => modify key (closePath path) f

/-- What is below the node at a path, if that is open. -/
def find? : List PathKey → Forest → Option Forest
  | [], f => some f
  | key :: path, f => (child? key f).bind (find? path)

/-- The paths of at most `depth` keys, each before its extensions. -/
def paths (depth : Nat) : Forest → List (List PathKey)
  | leaf => []
  | node key below beside =>
    match depth with
    | 0 => []
    | n + 1 => [key] :: ((paths n below).map (key :: ·) ++ paths (n + 1) beside)

theorem mem_keys_update {key : PathKey} {change : Forest → Forest} {f : Forest} {k : PathKey}
    (h : k ∈ (update key change f).keys) : k = key ∨ k ∈ f.keys := by
  induction f with
  | leaf => simpa [update, keys] using h
  | node j below beside _ ih =>
    unfold update at h
    split at h
    · exact .inr (by simpa [keys] using h)
    · split at h
      · simpa [keys] using h
      · rcases List.mem_cons.1 h with h | h
        · exact .inr (by simp [keys, h])
        · exact (ih h).imp id fun h => by simp [keys, h]

theorem sorted_update {key : PathKey} {change : Forest → Forest}
    (hc : ∀ f, f.Sorted → (change f).Sorted) {f : Forest} (h : f.Sorted) :
    (update key change f).Sorted := by
  induction f with
  | leaf => exact ⟨by simp [keys], hc leaf trivial, trivial⟩
  | node k below beside _ ih =>
    obtain ⟨hk, hb, hs⟩ := h
    unfold update
    split
    · exact ⟨hk, hc below hb, hs⟩
    · next ne =>
      split
      · next lt =>
        refine ⟨?_, hc leaf trivial, hk, hb, hs⟩
        intro j hj
        rcases List.mem_cons.1 hj with rfl | hj
        · exact lt
        · exact lt.trans (hk j hj)
      · next nlt =>
        refine ⟨?_, hb, ih hs⟩
        intro j hj
        rcases mem_keys_update hj with rfl | hj
        · exact PathKey.Before.total ne nlt
        · exact hk j hj

theorem keys_modify (key : PathKey) (change : Forest → Forest) (f : Forest) :
    (modify key change f).keys = f.keys := by
  induction f with
  | leaf => rfl
  | node k below beside _ ih => unfold modify; split <;> simp [keys, ih]

theorem sorted_modify {key : PathKey} {change : Forest → Forest}
    (hc : ∀ f, f.Sorted → (change f).Sorted) {f : Forest} (h : f.Sorted) :
    (modify key change f).Sorted := by
  induction f with
  | leaf => trivial
  | node k below beside _ ih =>
    obtain ⟨hk, hb, hs⟩ := h
    unfold modify
    split
    · exact ⟨hk, hc below hb, hs⟩
    · exact ⟨by rw [keys_modify]; exact hk, hb, ih hs⟩

theorem mem_keys_remove {key : PathKey} {f : Forest} {k : PathKey} (h : k ∈ (remove key f).keys) :
    k ∈ f.keys := by
  induction f with
  | leaf => exact h
  | node j below beside _ ih =>
    unfold remove at h
    split at h
    · simp [keys, h]
    · rcases List.mem_cons.1 h with h | h
      · simp [keys, h]
      · simp [keys, ih h]

theorem sorted_remove {key : PathKey} {f : Forest} (h : f.Sorted) : (remove key f).Sorted := by
  induction f with
  | leaf => trivial
  | node k below beside _ ih =>
    obtain ⟨hk, hb, hs⟩ := h
    unfold remove
    split
    · exact hs
    · exact ⟨fun j hj => hk j (mem_keys_remove hj), hb, ih hs⟩

theorem sorted_openPath (path : List PathKey) {f : Forest} (h : f.Sorted) :
    (openPath path f).Sorted := by
  induction path generalizing f with
  | nil => exact h
  | cons key path ih => exact sorted_update (fun _ => ih) h

theorem sorted_closePath (path : List PathKey) {f : Forest} (h : f.Sorted) :
    (closePath path f).Sorted := by
  induction path generalizing f with
  | nil => trivial
  | cons key path ih =>
    cases path with
    | nil => exact sorted_remove h
    | cons k rest => exact sorted_modify (fun _ => ih) h

end Forest

/-- The open nodes of a pivot tree below its root. -/
structure OpenPaths where
  forest : Forest
  sorted : forest.Sorted

namespace OpenPaths

instance : DecidableEq OpenPaths := fun p q =>
  if h : p.forest = q.forest then isTrue (by cases p; cases q; cases h; rfl)
  else isFalse fun e => h (congrArg forest e)

def empty : OpenPaths := ⟨.leaf, trivial⟩

/-- Nothing is open. -/
def isEmpty (p : OpenPaths) : Bool := p.forest == .leaf

def openPath (path : List PathKey) (p : OpenPaths) : OpenPaths :=
  ⟨p.forest.openPath path, Forest.sorted_openPath path p.sorted⟩

def closePath (path : List PathKey) (p : OpenPaths) : OpenPaths :=
  ⟨p.forest.closePath path, Forest.sorted_closePath path p.sorted⟩

/-- The node at a path is open; the empty path names no node. -/
def isOpen (path : List PathKey) (p : OpenPaths) : Bool :=
  path != [] && (p.forest.find? path).isSome

/-- One more node with what is open below it, in place of a node with the same key. -/
def put (p : OpenPaths) (key : PathKey) (below : OpenPaths) : OpenPaths :=
  ⟨p.forest.update key fun _ => below.forest,
    Forest.sorted_update (fun _ _ => below.sorted) p.sorted⟩

/-- The open paths with the given nodes at the top; of several with one key the last counts. -/
def ofEntries (entries : List (PathKey × OpenPaths)) : OpenPaths :=
  entries.foldl (fun p e => p.put e.1 e.2) empty

/-- The paths of at most `depth` keys that lead to open nodes, the path to the root first. -/
def shown (depth : Nat) (p : OpenPaths) : List (List PathKey) := [] :: p.forest.paths depth

end OpenPaths

def textPath (path : List String) : List PathKey := path.map some

def valuePath (path : List Scalar) : List PathKey := path.map PathKey.ofScalar

end Crosstab
