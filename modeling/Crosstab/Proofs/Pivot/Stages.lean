import Crosstab.Proofs.Pivot.Layout

namespace Crosstab

namespace PivotTree

variable {t : PivotTree}

/-! ## Levels -/

theorem map_fst_levels (t : PivotTree) : t.levels.map (·.1) = List.range t.depth := by
  rw [levels]
  exact List.map_fst_zip (Nat.le_of_eq List.length_range)

theorem getElem?_levels (t : PivotTree) (i : Nat) : t.levels[i]? = (t.pivots[i]?).map (i, ·) := by
  by_cases deep : i < t.pivots.length
  · have number : (List.range t.depth)[i]? = some i := List.getElem?_range deep
    have pivot : t.pivots[i]? = some t.pivots[i] := List.getElem?_eq_getElem deep
    have both : t.levels[i]? = some (i, t.pivots[i]) :=
      List.getElem?_zip_eq_some.2 ⟨number, pivot⟩
    rw [both, pivot]
    rfl
  · have long : t.levels.length ≤ i := by
      rw [levels, List.length_zip, List.length_range, depth]
      omega
    rw [List.getElem?_eq_none long, List.getElem?_eq_none (Nat.not_lt.1 deep)]
    rfl

theorem mem_levels {l : Nat × Column} : l ∈ t.levels ↔ t.pivots[l.1]? = some l.2 := by
  rw [List.mem_iff_getElem?]
  simp only [getElem?_levels, Option.map_eq_some_iff]
  constructor
  · rintro ⟨i, p, hp, rfl⟩
    exact hp
  · intro h
    exact ⟨l.1, l.2, h, rfl⟩

theorem lt_of_mem_levels {l : Nat × Column} (h : l ∈ t.levels) : l.1 < t.depth :=
  (List.getElem?_eq_some_iff.1 (mem_levels.1 h)).1

theorem exists_level {i : Nat} (h : i < t.depth) : ∃ l ∈ t.levels, l.1 = i :=
  ⟨(i, t.pivots[i]), mem_levels.2 (List.getElem?_eq_getElem h), rfl⟩

theorem mem_take_levels {l : Nat × Column} {count : Nat} :
    l ∈ t.levels.take count ↔ l ∈ t.levels ∧ l.1 < count := by
  rw [mem_levels, List.mem_iff_getElem?]
  simp only [List.getElem?_take, Option.ite_none_right_eq_some, getElem?_levels,
    Option.map_eq_some_iff]
  constructor
  · rintro ⟨i, below, p, hp, rfl⟩
    exact ⟨hp, below⟩
  · rintro ⟨hp, below⟩
    exact ⟨l.1, below, l.2, hp, rfl⟩

theorem mem_take_pivots {p : Column} {count : Nat} :
    p ∈ t.pivots.take count ↔ ∃ l ∈ t.levels, l.1 < count ∧ l.2 = p := by
  constructor
  · intro h
    obtain ⟨i, below, rfl⟩ := List.mem_take_iff_getElem.1 h
    refine ⟨(i, t.pivots[i]), mem_levels.2 (List.getElem?_eq_getElem ?_), ?_, rfl⟩ <;> omega
  · rintro ⟨l, hl, below, rfl⟩
    obtain ⟨deep, eq⟩ := List.getElem?_eq_some_iff.1 (mem_levels.1 hl)
    exact List.mem_take_iff_getElem.2 ⟨l.1, by omega, eq⟩

theorem take_pivotIds (t : PivotTree) (count : Nat) :
    t.pivotIds.take count = (t.pivots.take count).map (·.id) := by
  rw [pivotIds, List.map_take]

theorem mem_take_pivotIds {name : String} {count : Nat} :
    name ∈ t.pivotIds.take count ↔ ∃ l ∈ t.levels, l.1 < count ∧ l.2.id = name := by
  rw [take_pivotIds, List.mem_map]
  constructor
  · rintro ⟨p, hp, rfl⟩
    obtain ⟨l, hl, below, rfl⟩ := mem_take_pivots.1 hp
    exact ⟨l, hl, below, rfl⟩
  · rintro ⟨l, hl, below, rfl⟩
    exact ⟨l.2, mem_take_pivots.2 ⟨l, hl, below, rfl⟩, rfl⟩

theorem take_pivotIds_ne_nil {count : Nat} (pos : 0 < count) (deep : count ≤ t.depth) :
    t.pivotIds.take count ≠ [] := by
  obtain ⟨l, hl, eq⟩ := exists_level (Nat.lt_of_lt_of_le pos deep)
  exact List.ne_nil_of_mem (mem_take_pivotIds.2 ⟨l, hl, eq ▸ pos, rfl⟩)

/-- The aggregates that remain when the rows are grouped by the first pivots. -/
def folded (t : PivotTree) (count : Nat) : List AggregateColumn :=
  t.aggregates.filter fun a => !(t.pivotIds.take count).contains a.column

theorem mem_folded {a : AggregateColumn} {count : Nat} :
    a ∈ t.folded count ↔ a ∈ t.aggregates ∧ a.column ∉ t.pivotIds.take count := by
  simp [folded]

/-! ## Steps -/

section
variable {q r : Query}

theorem finish_eq_ok_iff {depth known : Nat} {label : Expr} {isRoot : Bool} :
    t.finish q depth label isRoot known = .ok r ↔ ∃ q₁ q₂ q₃ q₄,
      q.extend depthColumn .integer (.lit (.int (Int64.ofNat depth))) = .ok q₁ ∧
      q₁.extend labelColumn .text label = .ok q₂ ∧
      q₂.extend rootColumn .boolean (.lit (.bool isRoot)) = .ok q₃ ∧
      t.levels.foldlM (addPathColumn known) q₃ = .ok q₄ ∧
      q₄.project t.outputColumns = .ok r := by
  simp only [finish, bind_eq_ok_iff, mapError_eq_ok_iff]
  constructor
  · rintro ⟨q₁, h₁, q₂, h₂, q₃, h₃, q₄, h₄, h⟩
    exact ⟨q₁, q₂, q₃, q₄, h₁, h₂, h₃, h₄, h⟩
  · rintro ⟨q₁, q₂, q₃, q₄, h₁, h₂, h₃, h₄, h⟩
    exact ⟨q₁, h₁, q₂, h₂, q₃, h₃, q₄, h₄, h⟩

theorem rootQuery_eq_ok_iff : t.rootQuery = .ok r ↔
    ∃ groups, t.groupRows t.base 0 = .ok groups ∧
      t.finish groups 0 (.null .text) true 0 = .ok r := by
  simp only [rootQuery, bind_eq_ok_iff, mapError_eq_ok_iff]

/-- What the children of a node are, made from the base rows below the node. -/
inductive Children (t : PivotTree) (path : List Scalar) (rows : Query) : Query → Prop where
  /-- The groups of the next level. -/
  | groups {pivot : Column} {groups r : Query} (next : t.pivots[path.length]? = some pivot)
      (grouped : t.groupRows rows (path.length + 1) = .ok groups)
      (finished : t.finish groups (path.length + 1) (.column pivot.id) false (path.length + 1) =
        .ok r) : Children t path rows r
  /-- The base rows. -/
  | leaves {r : Query} (last : t.pivots[path.length]? = none)
      (shown : t.spec.showLeafRows = true)
      (finished : t.finish rows (t.depth + 1) t.leafLabel false t.depth = .ok r) :
      Children t path rows r
  /-- No rows, as base rows are not shown. -/
  | hidden {groups none r : Query} (last : t.pivots[path.length]? = .none)
      (hidden : t.spec.showLeafRows = false) (grouped : t.groupRows rows t.depth = .ok groups)
      (emptied : groups.filter (.lit (.bool false)) = .ok none)
      (finished : t.finish none (t.depth + 1) (.null .text) false t.depth = .ok r) :
      Children t path rows r

theorem pathQuery_eq_ok_iff {path : List Scalar} : t.pathQuery path = .ok r ↔
    path.length ≤ t.depth ∧ ∃ rows, t.filterPath path = .ok rows ∧ t.Children path rows r := by
  unfold pathQuery
  by_cases long : t.depth < path.length
  · simp [long, Nat.not_le.2 long]
  · rw [if_neg long, bind_eq_ok_iff]
    simp only [Nat.not_lt.1 long, true_and]
    refine exists_congr fun rows => and_congr_right fun _ => ?_
    constructor
    · intro h
      split at h
      · next pivot hp =>
        obtain ⟨groups, grouped, finished⟩ := bind_eq_ok_iff.1 h
        exact .groups hp (mapError_eq_ok_iff.1 grouped) finished
      · next last =>
        split at h
        · next shown => exact .leaves last shown h
        · next hidden =>
          obtain ⟨groups, grouped, h⟩ := bind_eq_ok_iff.1 h
          obtain ⟨none, emptied, finished⟩ := bind_eq_ok_iff.1 h
          exact .hidden last (Bool.eq_false_iff.2 hidden) (mapError_eq_ok_iff.1 grouped) emptied
            finished
    · rintro (⟨next, grouped, finished⟩ | ⟨last, shown, finished⟩ |
        ⟨last, hidden, grouped, emptied, finished⟩)
      · rw [next]
        exact bind_eq_ok_iff.2 ⟨_, mapError_eq_ok_iff.2 grouped, finished⟩
      · rw [last]
        simpa [shown] using finished
      · rw [last]
        simp only [hidden, Bool.false_eq_true, if_false]
        exact bind_eq_ok_iff.2 ⟨_, mapError_eq_ok_iff.2 grouped,
          bind_eq_ok_iff.2 ⟨_, emptied, finished⟩⟩

def nodeKeys (t : PivotTree) (depth : Nat) : List SortKey :=
  t.spec.sortKey ++ (t.pivotIds.take depth).map SortKey.asc

theorem rankQuery_eq_ok_iff {depth : Nat} : t.rankQuery depth = .ok r ↔
    0 < depth ∧ depth ≤ t.depth ∧ ∃ groups ranked q, t.groupRows t.base depth = .ok groups ∧
      groups.extend (rankColumn depth) .integer (.rowNumber (t.nodeKeys depth)) = .ok ranked ∧
      (t.levels.take depth).foldlM (addPathColumn depth) ranked = .ok q ∧
      q.project ((List.range depth).map pathColumn ++ [rankColumn depth]) = .ok r := by
  unfold rankQuery
  by_cases range : depth = 0 ∨ t.depth < depth
  · rw [if_pos range]
    constructor
    · intro h; cases h
    · rintro ⟨pos, deep, -⟩; omega
  · rw [if_neg range]
    simp only [bind_eq_ok_iff, mapError_eq_ok_iff]
    constructor
    · rintro ⟨groups, grouped, ranked, extended, q, paths, h⟩
      exact ⟨by omega, by omega, groups, ranked, q, grouped, extended, paths, h⟩
    · rintro ⟨-, -, groups, ranked, q, grouped, extended, paths, h⟩
      exact ⟨groups, grouped, ranked, extended, q, paths, h⟩

def rootPart (t : PivotTree) : Except Error (List Query) :=
  if t.spec.showRoot then t.rootQuery.map (fun q => [q]) else .ok []

theorem treeQuery_eq_ok_iff {openPaths : OpenPaths} {expandRoot : Bool} :
    t.treeQuery openPaths expandRoot = .ok r ↔ ∃ root parts, t.rootPart = .ok root ∧
      List.Forall₂ (fun path part => t.pathQuery (path.map PathKey.toScalar) = .ok part)
        (t.expandedPaths openPaths expandRoot) parts ∧ concatAll (root ++ parts) = .ok r := by
  have steps : t.treeQuery openPaths expandRoot = t.rootPart >>= fun root =>
      ((t.expandedPaths openPaths expandRoot).mapM fun path =>
        t.pathQuery (path.map PathKey.toScalar)) >>= fun parts =>
          (concatAll (root ++ parts)).mapError .build := by
    unfold treeQuery rootPart
    split <;> rfl
  simp only [steps, bind_eq_ok_iff, mapM_eq_ok_iff, mapError_eq_ok_iff]
  constructor
  · rintro ⟨root, hroot, parts, each, h⟩
    exact ⟨root, parts, hroot, each, h⟩
  · rintro ⟨root, parts, hroot, each, h⟩
    exact ⟨root, hroot, parts, each, h⟩

def joinNames (depth : Nat) : List String :=
  (List.range depth).map pathColumn ++ [levelColumn depth]

/-- Ranks are not joined by ranks. -/
theorem not_sameName_joinNames {name : String} {depth n : Nat} (h : name ∈ joinNames depth) :
    ¬ SameName name (rankColumn n) := by
  obtain path | level := List.mem_append.1 h
  · obtain ⟨i, -, rfl⟩ := List.mem_map.1 path
    exact not_sameName_path_rank
  · rw [List.mem_singleton.1 level]
    exact fun same => not_sameName_rank_level same.symm

theorem addRank_eq_ok_iff {depth : Nat} : t.addRank q depth = .ok r ↔
    ∃ flagged ranks marked, q.extend (levelColumn depth) .boolean
        (.combine .ge [.column depthColumn, .lit (.int (Int64.ofNat depth))]) = .ok flagged ∧
      t.rankQuery depth = .ok ranks ∧
      ranks.extend (levelColumn depth) .boolean (.lit (.bool true)) = .ok marked ∧
      flagged.join marked (joinNames depth) .left true = .ok r := by
  simp only [addRank, bind_eq_ok_iff, mapError_eq_ok_iff]
  constructor
  · rintro ⟨flagged, hf, ranks, hr, marked, hm, h⟩
    exact ⟨flagged, ranks, marked, hf, hr, hm, h⟩
  · rintro ⟨flagged, ranks, marked, hf, hr, hm, h⟩
    exact ⟨flagged, hf, ranks, hr, marked, hm, h⟩

def displayKeys (t : PivotTree) : List SortKey :=
  t.depths.map (fun d => SortKey.asc (rankColumn d)) ++ [SortKey.asc depthColumn] ++
    t.spec.sortKey ++ [SortKey.asc labelColumn]

theorem sortedTreeQuery_eq_ok_iff {openPaths : OpenPaths} {expandRoot : Bool} :
    t.sortedTreeQuery openPaths expandRoot = .ok r ↔ ∃ tree ranked q,
      t.treeQuery openPaths expandRoot = .ok tree ∧ t.depths.foldlM t.addRank tree = .ok ranked ∧
      ranked.project (t.outputColumns ++ t.depths.map rankColumn) = .ok q ∧
      q.sort t.displayKeys = .ok r := by
  simp only [sortedTreeQuery, bind_eq_ok_iff, mapError_eq_ok_iff]
  constructor
  · rintro ⟨tree, ht, ranked, hr, q, hq, h⟩
    exact ⟨tree, ranked, q, ht, hr, hq, h⟩
  · rintro ⟨tree, ranked, q, ht, hr, hq, h⟩
    exact ⟨tree, ht, ranked, hr, q, hq, h⟩

end

end PivotTree

end Crosstab
