import Mathlib.Data.List.Forall2
import Crosstab.Proofs.Meaning.Steps

/-!
# Comparing and sorting

What an engine has to do with values for groups and ranks to mean what they do in SQL, and what
follows for sorted rows.
-/

namespace Crosstab

variable {V : Type}

/-- A scalar that an engine stores as a value: it is not null, and it is a number if it is a
real. -/
def Scalar.IsValue (v : Scalar) : Prop := v ≠ .null ∧ v ≠ .real .nan

instance (v : Scalar) : Decidable v.IsValue := inferInstanceAs (Decidable (_ ∧ _))

/-- Two values are equal in a condition if they are the same and not null, false is not true, and
constants are null only if they must be. -/
structure Engine.Comparing (E : Engine V) : Prop extends E.Lawful where
  eq_true : ∀ a b, E.isTrue (E.binary .eq a b) = (E.same a b && !E.same a E.null)
  isNull_true : ∀ a, E.isTrue (E.unary .isNull a) = E.same a E.null
  false_not_true : E.isTrue (E.constant (.bool false)) = false
  constant_not_null : ∀ v : Scalar, v.IsValue → E.same (E.constant v) E.null = false

def Directed (le : V → V → Prop) (ascending : Bool) (a b : V) : Prop :=
  if ascending then le a b else le b a

/-- Keys stand at or before other keys. A later key only counts where the earlier ones are tied. -/
def KeysLe (le : V → V → Prop) : List (V × Bool) → List (V × Bool) → Prop
  | (a, ascending) :: as, (b, _) :: bs =>
    Directed le ascending a b ∧ (Directed le ascending b a → KeysLe le as bs)
  | _, _ => True

/-- Rows are sorted by an order of values. Nulls come first in it, values that are the same are
tied, and numbers of rows and integers are ordered as numbers. -/
structure Engine.Sorts (E : Engine V) (le : V → V → Prop) : Prop where
  total : ∀ a b, le a b ∨ le b a
  trans : ∀ a b c, le a b → le b c → le a c
  le_of_same : ∀ a b, E.same a b = true → le a b
  null_le : ∀ a, le E.null a
  same_null_of_le : ∀ a, le a E.null → E.same a E.null = true
  ordinal_le : ∀ m n, le (E.ordinal m) (E.ordinal n) ↔ m ≤ n
  int_le : ∀ m n, le (E.constant (.int m)) (E.constant (.int n)) ↔ m ≤ n
  arrange_sorted : ∀ keys directions, (∀ row ∈ keys, row.map (·.2) = directions) →
    (E.arrange keys).Pairwise fun i j => KeysLe le (keys.getD i []) (keys.getD j [])

/-! ## Keys -/

section
variable {le : V → V → Prop}

def Tied (le : V → V → Prop) (x y : V × Bool) : Prop := le x.1 y.1 ∧ le y.1 x.1

theorem Tied.directed {x y : V × Bool} (h : Tied le x y) (ascending : Bool) :
    Directed le ascending x.1 y.1 ∧ Directed le ascending y.1 x.1 := by
  cases ascending
  · exact ⟨h.2, h.1⟩
  · exact h

theorem KeysLe.head {x y : V × Bool} {xs ys : List (V × Bool)}
    (h : KeysLe le (x :: xs) (y :: ys)) : Directed le x.2 x.1 y.1 := h.1

/-- Where the first keys are tied, the others decide. -/
theorem KeysLe.of_append {xs ys as bs : List (V × Bool)} (ties : List.Forall₂ (Tied le) xs ys)
    (h : KeysLe le (xs ++ as) (ys ++ bs)) : KeysLe le as bs := by
  induction ties with
  | nil => exact h
  | cons first _ ih => exact ih (h.2 (first.directed _).2)

theorem keysLe_of_ties {xs ys : List (V × Bool)} (ties : List.Forall₂ (Tied le) xs ys) :
    KeysLe le xs ys := by
  induction ties with
  | nil => trivial
  | cons first _ ih => exact ⟨(first.directed _).1, fun _ => ih⟩

/-- Tied keys in the middle do not count. -/
theorem KeysLe.drop_middle {xs ys ts us as bs : List (V × Bool)} (len : xs.length = ys.length)
    (ties : List.Forall₂ (Tied le) ts us) (h : KeysLe le (xs ++ (ts ++ as)) (ys ++ (us ++ bs))) :
    KeysLe le (xs ++ as) (ys ++ bs) := by
  induction xs generalizing ys with
  | nil =>
    have none : ys = [] := List.length_eq_zero_iff.1 len.symm
    subst none
    exact h.of_append ties
  | cons x xs ih =>
    obtain _ | ⟨y, ys⟩ := ys
    · cases len
    · exact ⟨h.1, fun back => ih (Nat.succ.inj len) (h.2 back)⟩

/-- Keys in increasing order: the first that are not tied decide, the others only where all are
tied. -/
theorem KeysLe.at_first {f g : Nat → V} {count k : Nat} (few : count ≤ k) {as bs : List (V × Bool)}
    (ties : ∀ i < count, Tied le (f i, true) (g i, true))
    (h : KeysLe le ((List.range k).map (fun i => (f i, true)) ++ as)
      ((List.range k).map (fun i => (g i, true)) ++ bs)) :
    (count < k → le (f count) (g count)) ∧ (count = k → KeysLe le as bs) := by
  obtain ⟨more, rfl⟩ : ∃ more, k = count + more := ⟨k - count, by omega⟩
  have first : List.Forall₂ (Tied le) ((List.range count).map fun i => (f i, true))
      ((List.range count).map fun i => (g i, true)) := by
    rw [List.forall₂_map_left_iff, List.forall₂_map_right_iff, List.forall₂_same]
    intro i hi
    exact ties i (List.mem_range.1 hi)
  rw [List.range_add, List.map_append, List.map_append, List.append_assoc, List.append_assoc] at h
  have rest := h.of_append first
  constructor
  · intro below
    cases more with
    | zero => omega
    | succ more =>
      rw [List.range_succ_eq_map] at rest
      exact rest.head
  · intro all
    have none : more = 0 := by omega
    rw [none] at rest
    exact rest

end

/-! ## Sorted rows -/

namespace Engine

variable {E : Engine V} {le : V → V → Prop}

theorem Sorts.le_refl (sorts : E.Sorts le) (a : V) : le a a := (sorts.total a a).elim id id

theorem Sorts.keysLe_refl (sorts : E.Sorts le) (xs : List (V × Bool)) : KeysLe le xs xs :=
  keysLe_of_ties (List.forall₂_same.2 fun x _ => ⟨sorts.le_refl x.1, sorts.le_refl x.1⟩)

theorem Sorts.tied (sorts : E.Sorts le) (lawful : E.Lawful) {a b : V} (h : E.same a b = true)
    (x y : Bool) : Tied le (a, x) (b, y) :=
  ⟨sorts.le_of_same a b h, sorts.le_of_same b a (lawful.same_symm a b h)⟩

/-- A number of rows does not stand at or before a null. -/
theorem Sorts.not_ordinal_le_null (sorts : E.Sorts le) (lawful : E.Lawful) (n : Nat) :
    ¬ le (E.ordinal n) E.null := by
  intro h
  have null := sorts.same_null_of_le _ h
  rw [lawful.same_ordinal_null] at null
  cases null

section
variable (sorts : E.Sorts le) {keys : List (List (V × Bool))} {directions : List Bool}
  (shape : ∀ row ∈ keys, row.map (·.2) = directions) {i j : Nat}

theorem mem_arrange (E : Engine V) (keys : List (List (V × Bool))) {i : Nat} :
    i ∈ E.arrange keys ↔ i < keys.length := by
  rw [(E.arrange_perm keys).mem_iff, List.mem_range]

/-- Two rows have different ranks. -/
theorem eq_of_rank_eq (hi : i < keys.length) (h : E.rank keys i = E.rank keys j) : i = j := by
  have places : (E.arrange keys).idxOf i = (E.arrange keys).idxOf j := Nat.succ.inj h
  exact (List.idxOf_inj ((mem_arrange E keys).2 hi)).1 places

include sorts shape in
/-- A row of a smaller rank stands at or before one of a greater rank. -/
theorem Sorts.keysLe_of_rank_lt (hi : i < keys.length) (hj : j < keys.length)
    (h : E.rank keys i < E.rank keys j) : KeysLe le (keys.getD i []) (keys.getD j []) := by
  have sorted := List.pairwise_iff_getElem.1 (sorts.arrange_sorted keys directions shape)
  have memI := (mem_arrange E keys).2 hi
  have memJ := (mem_arrange E keys).2 hj
  have before : (E.arrange keys).idxOf i < (E.arrange keys).idxOf j := by
    unfold rank at h
    omega
  have placed := sorted _ _ (List.idxOf_lt_length_of_mem memI) (List.idxOf_lt_length_of_mem memJ)
    before
  rwa [List.getElem_idxOf, List.getElem_idxOf] at placed

end

end Engine

theorem Schema.directions_sortValues (E : Engine V) (s : Schema) (keys : List SortKey)
    (row : List V) : (s.sortValues E keys row).map (·.2) = keys.map (·.ascending) := by
  simp [Schema.sortValues]

theorem getD_map_of_getElem? {α β : Type} {f : α → List β} {rows : List α} {i : Nat} {a : α}
    (h : rows[i]? = some a) : (rows.map f).getD i [] = f a := by
  rw [List.getD_eq_getElem?_getD, List.getElem?_map, h]
  rfl

theorem pairwise_pick {α : Type} {R : α → α → Prop} {rows : List α} {positions : List Nat}
    (h : positions.Pairwise fun i j => ∀ a b, rows[i]? = some a → rows[j]? = some b → R a b) :
    (pick rows positions).Pairwise R := by
  refine List.pairwise_filterMap.2 (h.imp fun {i j} each a ha b hb => ?_)
  exact each a b ha hb

/-- Sorted rows stand in the order of their keys. -/
theorem Query.sort_sorted {E : Engine V} {le : V → V → Prop} (sorts : E.Sorts le) (db : Tables V)
    {q r : Query} {keys : List SortKey} (h : q.sort keys = .ok r) :
    (r.rows E db).Pairwise fun a b =>
      KeysLe le (q.schema.sortValues E keys a) (q.schema.sortValues E keys b) := by
  obtain ⟨checked, rfl⟩ := sort_eq_ok_iff.1 h
  refine pairwise_pick ?_
  have arranged := sorts.arrange_sorted ((q.rows E db).map (q.schema.sortValues E keys))
    (keys.map (·.ascending)) (by
      intro row hrow
      obtain ⟨_, -, rfl⟩ := List.mem_map.1 hrow
      exact Schema.directions_sortValues E q.schema keys _)
  refine arranged.imp fun {i j} placed a b ha hb => ?_
  have ha : (q.rows E db)[i]? = some a := ha
  have hb : (q.rows E db)[j]? = some b := hb
  rwa [getD_map_of_getElem? ha, getD_map_of_getElem? hb] at placed

end Crosstab
