import Mathlib.Data.List.Basic
import Mathlib.Data.List.Induction
import Crosstab.Proofs.Meaning.Rows

namespace Crosstab

variable {V : Type}

theorem headD_pick {α : Type} {rows : List α} {i : Nat} (h : i < rows.length) (positions : List Nat)
    (d : α) : (pick rows (i :: positions)).headD d = rows[i] := by
  simp [pick, List.getElem?_eq_getElem h]

theorem pick_range {α : Type} (xs : List α) : pick xs (List.range xs.length) = xs := by
  induction xs using List.reverseRecOn with
  | nil => rfl
  | append_singleton xs a ih =>
    have before : (List.range xs.length).filterMap ((xs ++ [a])[·]?) = xs := by
      conv_rhs => rw [← ih]
      refine List.filterMap_congr fun i hi => ?_
      exact List.getElem?_append_left (List.mem_range.1 hi)
    rw [List.length_append, List.length_singleton, List.range_succ, pick, List.filterMap_append,
      before]
    simp

/-- Picking every position once gives the elements in another order. -/
theorem pick_perm {α : Type} {xs : List α} {positions : List Nat}
    (h : positions.Perm (List.range xs.length)) : (pick xs positions).Perm xs :=
  (h.filterMap _).trans (.of_eq (pick_range xs))

theorem pick_filter {α : Type} (f : α → Bool) (xs : List α) :
    pick xs ((List.range xs.length).filter fun i => xs[i]?.any f) = xs.filter f := by
  rw [pick, List.filterMap_filter]
  conv_rhs => rw [← pick_range xs, pick, List.filter_filterMap]
  refine List.filterMap_congr fun i _ => ?_
  cases xs[i]? <;> simp [Option.filter]

namespace Engine

variable {E : Engine V}

section
variable (lawful : E.Lawful)
include lawful

theorem sameRow_refl (as : List V) : E.sameRow as as = true := by
  induction as with
  | nil => rfl
  | cons a as ih => rw [sameRow, lawful.same_refl, ih]; rfl

theorem sameRow_trans {as bs cs : List V} (h : E.sameRow as bs = true)
    (h' : E.sameRow bs cs = true) : E.sameRow as cs = true := by
  induction as generalizing bs cs with
  | nil => cases bs with
    | nil => exact h'
    | cons b bs => cases h
  | cons a as ih => cases bs with
    | nil => cases h
    | cons b bs => cases cs with
      | nil => cases h'
      | cons c cs =>
        rw [sameRow, Bool.and_eq_true] at h h' ⊢
        exact ⟨lawful.same_trans _ _ _ h.1 h'.1, ih h.2 h'.2⟩

theorem sameRow_symm {as bs : List V} (h : E.sameRow as bs = true) : E.sameRow bs as = true := by
  induction as generalizing bs with
  | nil => cases bs with
    | nil => rfl
    | cons b bs => cases h
  | cons a as ih => cases bs with
    | nil => cases h
    | cons b bs =>
      rw [sameRow, Bool.and_eq_true] at h ⊢
      exact ⟨lawful.same_symm _ _ h.1, ih h.2⟩

/-- Every position has the keys of one that is the first with these. -/
theorem exists_first (keys : List (List V)) (i : Nat) :
    ∃ j ≤ i, E.isFirst keys j = true ∧ E.sameAt keys j i = true := by
  induction i using Nat.strongRecOn with
  | ind i ih =>
    by_cases first : E.isFirst keys i = true
    · exact ⟨i, Nat.le_refl _, first, sameRow_refl lawful _⟩
    · obtain ⟨j, below, same⟩ : ∃ j < i, E.sameAt keys j i = true := by
        simpa [isFirst] using first
      obtain ⟨k, hk, first, before⟩ := ih j below
      exact ⟨k, by omega, first, sameRow_trans lawful before same⟩

end

theorem sameAt_eq_false_of_isFirst {keys : List (List V)} {i j : Nat}
    (h : E.isFirst keys j = true) (below : i < j) : E.sameAt keys i j = false := by
  have := List.all_eq_true.1 h i (List.mem_range.2 below)
  simpa using this

/-- The positions with the keys of a first one. -/
theorem class_eq_filter (lawful : E.Lawful) {keys : List (List V)} {i : Nat} (hi : i < keys.length)
    (first : E.isFirst keys i = true) :
    (i :: (List.range keys.length).filter fun j => decide (i < j) && E.sameAt keys i j) =
      (List.range keys.length).filter (E.sameAt keys i) := by
  obtain ⟨more, len⟩ : ∃ more, keys.length = i + 1 + more := ⟨keys.length - (i + 1), by omega⟩
  have before : (List.range i).filter (E.sameAt keys i) = [] := by
    refine List.filter_eq_nil_iff.2 fun j hj same => ?_
    have other := sameAt_eq_false_of_isFirst first (List.mem_range.1 hj)
    have back : E.sameAt keys j i = true := sameRow_symm lawful same
    rw [other] at back
    cases back
  have own : E.sameAt keys i i = true := sameRow_refl lawful _
  rw [len, List.range_add, List.range_succ]
  simp only [List.filter_append, before, List.filter_cons, own, List.filter_nil, List.nil_append,
    Nat.lt_irrefl, decide_false, Bool.false_and, Bool.false_eq_true, if_false, if_true]
  have none : (List.range i).filter (fun j => decide (i < j) && E.sameAt keys i j) = [] := by
    refine List.filter_eq_nil_iff.2 fun j hj => ?_
    have below := List.mem_range.1 hj
    simp [Nat.not_lt.2 (Nat.le_of_lt below)]
  rw [none, List.nil_append, List.singleton_append]
  congr 1
  refine List.filter_congr fun j hj => ?_
  obtain ⟨k, -, rfl⟩ := List.mem_map.1 hj
  have above : i < i + 1 + k := by omega
  simp [above]

theorem ne_nil_of_mem_classes {keys : List (List V)} {positions : List Nat}
    (h : positions ∈ E.classes keys) {α : Type} {rows : List α}
    (len : rows.length = keys.length) : pick rows positions ≠ [] := by
  obtain ⟨i, hi, rfl⟩ := List.mem_map.1 h
  have bound : i < rows.length := by
    rw [len]
    exact List.mem_range.1 (List.mem_filter.1 hi).1
  simp [pick, List.getElem?_eq_getElem bound]

end Engine

namespace Schema

variable (E : Engine V) (s : Schema) {columns : List String} {rows : List (List V)}

def groupKeys (columns : List String) (row : List V) : List V := columns.map (E.cell s.ids row)

/-- The first rows with their keys, by position. -/
def firsts (columns : List String) (rows : List (List V)) : List Nat :=
  (List.range rows.length).filter (E.isFirst (rows.map (s.groupKeys E columns)))

theorem getD_groupKeys {i : Nat} (h : i < rows.length) :
    (rows.map (s.groupKeys E columns)).getD i [] = s.groupKeys E columns rows[i] := by
  simp [List.getD_eq_getElem?_getD, List.getElem?_map, List.getElem?_eq_getElem h]

/-- There is a group for each first row, and it begins with that. -/
theorem groups_eq (rows : List (List V)) (grouped : columns ≠ []) : ∃ others : Nat → List Nat,
    s.groups E columns rows =
      (s.firsts E columns rows).map fun i => pick rows (i :: others i) := by
  refine ⟨fun i => (List.range rows.length).filter fun j =>
    decide (i < j) && E.sameAt (rows.map (s.groupKeys E columns)) i j, ?_⟩
  rw [groups, if_neg grouped, Engine.classes, List.map_map, List.length_map]
  rfl

theorem lt_of_mem_firsts {i : Nat} (h : i ∈ s.firsts E columns rows) : i < rows.length :=
  List.mem_range.1 (List.mem_filter.1 h).1

/-- A group has a row. -/
theorem head_mem_of_mem_groups (grouped : columns ≠ []) {members : List (List V)}
    (h : members ∈ s.groups E columns rows) : members.headD [] ∈ rows := by
  obtain ⟨others, eq⟩ := s.groups_eq E rows grouped
  rw [eq] at h
  obtain ⟨i, hi, rfl⟩ := List.mem_map.1 h
  rw [headD_pick (lt_of_mem_firsts E s hi)]
  exact List.getElem_mem _

section
variable {E} (lawful : E.Lawful) (grouped : columns ≠ [])
include lawful grouped

/-- Every row has the keys of a group. -/
theorem exists_group {row : List V} (h : row ∈ rows) :
    ∃ members ∈ s.groups E columns rows,
      E.sameRow (s.groupKeys E columns (members.headD [])) (s.groupKeys E columns row) = true := by
  obtain ⟨i, hi, rfl⟩ := List.getElem_of_mem h
  obtain ⟨j, below, first, same⟩ :=
    Engine.exists_first lawful (rows.map (s.groupKeys E columns)) i
  obtain ⟨others, eq⟩ := s.groups_eq E rows grouped
  have hj : j < rows.length := by omega
  refine ⟨pick rows (j :: others j), ?_, ?_⟩
  · rw [eq]
    exact List.mem_map.2 ⟨j, List.mem_filter.2 ⟨List.mem_range.2 hj, first⟩, rfl⟩
  · rw [headD_pick hj]
    rwa [Engine.sameAt, getD_groupKeys E s hj, getD_groupKeys E s hi] at same

omit lawful in
/-- Two groups have different keys. -/
theorem groups_distinct : (s.groups E columns rows).Pairwise fun a b =>
    E.sameRow (s.groupKeys E columns (a.headD [])) (s.groupKeys E columns (b.headD [])) =
      false := by
  obtain ⟨others, eq⟩ := s.groups_eq E rows grouped
  rw [eq, List.pairwise_map]
  have increasing : (s.firsts E columns rows).Pairwise (· < ·) := List.pairwise_lt_range.filter _
  refine increasing.imp_of_mem fun {i j} hi hj below => ?_
  have bound := lt_of_mem_firsts E s hi
  have bound' := lt_of_mem_firsts E s hj
  rw [headD_pick bound, headD_pick bound', ← getD_groupKeys E s bound, ← getD_groupKeys E s bound']
  exact Engine.sameAt_eq_false_of_isFirst (List.mem_filter.1 hj).2 below

/-- The rows of a group are all rows with the keys of its first row, in their order. -/
theorem members_eq_filter {members : List (List V)} (h : members ∈ s.groups E columns rows) :
    members = rows.filter fun row =>
      E.sameRow (s.groupKeys E columns (members.headD [])) (s.groupKeys E columns row) := by
  have keysLen : (rows.map (s.groupKeys E columns)).length = rows.length := List.length_map ..
  rw [groups, if_neg grouped] at h
  change members ∈ (E.classes (rows.map (s.groupKeys E columns))).map (pick rows) at h
  obtain ⟨positions, hp, rfl⟩ := List.mem_map.1 h
  obtain ⟨i, hi, rfl⟩ := List.mem_map.1 hp
  obtain ⟨hi, first⟩ := List.mem_filter.1 hi
  have bound := List.mem_range.1 hi
  have hrow : i < rows.length := keysLen ▸ bound
  rw [headD_pick hrow]
  conv_lhs => rw [Engine.class_eq_filter lawful bound first, List.length_map]
  rw [← pick_filter fun row =>
    E.sameRow (s.groupKeys E columns rows[i]) (s.groupKeys E columns row)]
  congr 1
  refine List.filter_congr fun j hj => ?_
  have hj := List.mem_range.1 hj
  rw [Engine.sameAt, getD_groupKeys E s hrow, getD_groupKeys E s hj, List.getElem?_eq_getElem hj]
  rfl

omit grouped in
theorem sameRow_groupKeys_congr {a b : List V}
    (h : E.sameRow (s.groupKeys E columns a) (s.groupKeys E columns b) = true) (row : List V) :
    E.sameRow (s.groupKeys E columns a) (s.groupKeys E columns row) =
      E.sameRow (s.groupKeys E columns b) (s.groupKeys E columns row) := by
  rw [Bool.eq_iff_iff]
  constructor
  · intro ha
    exact Engine.sameRow_trans lawful (Engine.sameRow_symm lawful h) ha
  · intro hb
    exact Engine.sameRow_trans lawful h hb

/-- If rows with the same keys are kept together, a group of the rows that are kept is a group of
all rows. -/
theorem mem_groups_of_filter {keep : List V → Bool}
    (together : ∀ a b, E.sameRow (s.groupKeys E columns a) (s.groupKeys E columns b) = true →
      keep a = keep b)
    {members : List (List V)} (h : members ∈ s.groups E columns (rows.filter keep)) :
    members ∈ s.groups E columns rows := by
  obtain ⟨head, kept⟩ := List.mem_filter.1 (s.head_mem_of_mem_groups E grouped h)
  obtain ⟨others, ho, same⟩ := s.exists_group lawful grouped head
  have all := s.members_eq_filter lawful grouped h
  have allOthers := s.members_eq_filter lawful grouped ho
  suffices eq : members = others from eq ▸ ho
  rw [all, allOthers, List.filter_filter]
  refine List.filter_congr fun row _ => ?_
  rw [s.sameRow_groupKeys_congr lawful same]
  by_cases own : E.sameRow (s.groupKeys E columns (members.headD [])) (s.groupKeys E columns row) =
      true
  · rw [own, ← together _ _ own, kept]
    rfl
  · rw [Bool.eq_false_iff.2 own, Bool.false_and]

end

end Schema

end Crosstab
