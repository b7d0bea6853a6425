import Mathlib.Data.List.Lex
import Crosstab.Proofs.Pivot.Display
import Crosstab.Proofs.Pivot.Success

/-!
# What the rows of a tree are put together from

The query for the rows of a tree concatenates the root, if that is shown, and the children of the
nodes that are expanded. These are listed in pre-order, siblings in the order of their keys; since a
path comes before its extensions, that is the lexicographic order of paths.
-/

namespace Crosstab

/-! ## Paths of a forest -/

namespace Forest

open PathKey (Before)

theorem exists_cons_of_mem_paths {f : Forest} {depth : Nat} {path : List PathKey}
    (h : path ∈ f.paths depth) : ∃ key rest, path = key :: rest ∧ key ∈ f.keys := by
  induction f generalizing depth path with
  | leaf => simp [paths] at h
  | node key below beside _ ih =>
    cases depth with
    | zero => simp [paths] at h
    | succ depth =>
      rw [paths, List.mem_cons, List.mem_append, List.mem_map] at h
      obtain rfl | ⟨rest, -, rfl⟩ | h := h
      · exact ⟨key, [], rfl, List.mem_cons_self⟩
      · exact ⟨key, rest, rfl, List.mem_cons_self⟩
      · obtain ⟨k, rest, rfl, mem⟩ := ih h
        exact ⟨k, rest, rfl, List.mem_cons_of_mem _ mem⟩

/-- Every node stands before those below it, and these before its later siblings. -/
theorem pairwise_paths {f : Forest} (sorted : f.Sorted) (depth : Nat) :
    (f.paths depth).Pairwise (List.Lex Before) := by
  induction f generalizing depth with
  | leaf => simp [paths]
  | node key below beside ihBelow ihBeside =>
    obtain ⟨first, sortedBelow, sortedBeside⟩ := sorted
    cases depth with
    | zero => simp [paths]
    | succ depth =>
      rw [paths, List.pairwise_cons, List.pairwise_append, List.pairwise_map]
      refine ⟨?_, (ihBelow sortedBelow depth).imp .cons, ihBeside sortedBeside _, ?_⟩
      · intro path h
        obtain h | h := List.mem_append.1 h
        · obtain ⟨rest, hr, rfl⟩ := List.mem_map.1 h
          obtain ⟨k, rest, rfl, -⟩ := exists_cons_of_mem_paths hr
          exact .cons .nil
        · obtain ⟨k, rest, rfl, mem⟩ := exists_cons_of_mem_paths h
          exact .rel (first k mem)
      · intro path h other ho
        obtain ⟨rest, -, rfl⟩ := List.mem_map.1 h
        obtain ⟨k, rest, rfl, mem⟩ := exists_cons_of_mem_paths ho
        exact .rel (first k mem)

theorem keys_of_child? {f below : Forest} {key : PathKey} (h : f.child? key = some below) :
    key ∈ f.keys := by
  induction f with
  | leaf => cases h
  | node k _ beside _ ih =>
    unfold child? at h
    split at h
    · next same => exact same ▸ List.mem_cons_self
    · exact List.mem_cons_of_mem _ (ih h)

/-- A path is listed exactly if it leads to an open node that is not too deep. -/
theorem mem_paths_iff {f : Forest} (sorted : f.Sorted) {depth : Nat} {key : PathKey}
    {path : List PathKey} :
    key :: path ∈ f.paths depth ↔ path.length < depth ∧ (f.find? (key :: path)).isSome = true := by
  induction f generalizing depth key path with
  | leaf => simp [paths, find?, child?]
  | node k below beside ihBelow ihBeside =>
    obtain ⟨first, sortedBelow, sortedBeside⟩ := sorted
    cases depth with
    | zero => simp [paths]
    | succ depth =>
      rw [paths, List.mem_cons, List.mem_append, List.mem_map, ihBeside sortedBeside]
      by_cases same : key = k
      · subst same
        have apart : beside.child? key = none := by
          rw [Option.eq_none_iff_forall_ne_some]
          exact fun _ found => Before.irrefl key (first key (keys_of_child? found))
        have inside : find? (key :: path) (node key below beside) = find? path below := by
          rw [find?, child?, if_pos rfl, Option.bind_some]
        have outside : find? (key :: path) beside = none := by rw [find?, apart, Option.bind_none]
        rw [inside, outside]
        cases path with
        | nil => simp [find?]
        | cons next path =>
          have here : next :: path ∈ below.paths depth ↔
              path.length < depth ∧ (below.find? (next :: path)).isSome = true :=
            ihBelow sortedBelow
          simp only [List.cons.injEq, true_and, exists_eq_right, here, List.length_cons]
          simp
      · have elsewhere :
            find? (key :: path) (node k below beside) = find? (key :: path) beside := by
          rw [find?, find?, child?, if_neg same]
        rw [elsewhere]
        simp [same, Ne.symm same]

end Forest

namespace OpenPaths

variable {p : OpenPaths}

/-- The listed paths: the empty one, then those of the open nodes that are not too deep. -/
theorem mem_shown_iff {depth : Nat} {path : List PathKey} :
    path ∈ p.shown depth ↔ path = [] ∨ path.length ≤ depth ∧ p.isOpen path = true := by
  cases path with
  | nil => simp [shown]
  | cons key path =>
    rw [shown, List.mem_cons, Forest.mem_paths_iff p.sorted, isOpen, bne_iff_ne.2 (by simp),
      Bool.true_and, List.length_cons, Nat.lt_iff_add_one_le]

theorem isEmpty_eq_true_iff : p.isEmpty = true ↔ p = empty := by
  rw [isEmpty, beq_iff_eq]
  constructor
  · intro leaf
    cases p
    cases leaf
    rfl
  · rintro rfl
    rfl

theorem pairwise_shown (p : OpenPaths) (depth : Nat) :
    (p.shown depth).Pairwise (List.Lex PathKey.Before) := by
  refine List.pairwise_cons.2 ⟨fun path h => ?_, Forest.pairwise_paths p.sorted depth⟩
  obtain ⟨key, rest, rfl, -⟩ := Forest.exists_cons_of_mem_paths h
  exact .nil

end OpenPaths

/-! ## Parts of a concatenation -/

/-- The plans that a plan concatenates, from left to right, with what is concatenated inside
them. -/
def Plan.summands {s : Schema} : Plan s → List Query
  | concat left right _ => left.summands ++ right.summands
  | p => [⟨s, p⟩]

/-- The queries that a query concatenates, from left to right. -/
def Query.summands (q : Query) : List Query := q.plan.summands

namespace PivotTree

variable {V : Type} {t : PivotTree} {openPaths : OpenPaths} {expandRoot : Bool} {q : Query}

theorem concatAll_summands {parts : List Query} (h : concatAll parts = .ok q) :
    q.summands = parts.flatMap Query.summands := by
  refine concatAll_flatMap (fun a b r joined => ?_) h
  obtain ⟨u, derived, rfl⟩ := Query.concat_eq_ok_iff.1 joined
  rfl

/-- The last step of a part is the choice of its columns, so a part is no concatenation. -/
theorem summands_finish {q r : Query} {depth known : Nat} {label : Expr} {isRoot : Bool}
    (h : t.finish q depth label isRoot known = .ok r) : r.summands = [r] := by
  obtain ⟨q₁, q₂, q₃, q₄, -, -, -, -, project⟩ := finish_eq_ok_iff.1 h
  obtain ⟨s, derived, rfl⟩ := Query.project_eq_ok_iff.1 project
  rfl

theorem summands_rootQuery {r : Query} (h : t.rootQuery = .ok r) : r.summands = [r] := by
  obtain ⟨groups, -, finished⟩ := rootQuery_eq_ok_iff.1 h
  exact summands_finish finished

theorem summands_pathQuery {path : List Scalar} {r : Query} (h : t.pathQuery path = .ok r) :
    r.summands = [r] := by
  obtain ⟨-, rows, -, children⟩ := pathQuery_eq_ok_iff.1 h
  cases children with
  | groups _ _ finished | leaves _ _ finished | hidden _ _ _ _ finished =>
    exact summands_finish finished

/-- A query concatenates the root, if the layout shows it, and then the children of the nodes at
some paths, in this order. -/
def Concatenates (t : PivotTree) (paths : List (List PathKey)) (q : Query) : Prop :=
  ∃ root parts, q.summands = root ++ parts ∧
    (if t.spec.showRoot = true then ∃ r, t.rootQuery = .ok r ∧ root = [r] else root = []) ∧
    List.Forall₂ (fun path part => t.pathQuery (path.map PathKey.toScalar) = .ok part) paths parts

theorem concatenates_of_treeQuery (h : t.treeQuery openPaths expandRoot = .ok q) :
    t.Concatenates (t.expandedPaths openPaths expandRoot) q := by
  obtain ⟨root, parts, hroot, each, all⟩ := treeQuery_eq_ok_iff.1 h
  have single : parts.flatMap Query.summands = parts := by
    rw [← List.flatMap_singleton' parts, List.flatMap_assoc]
    refine List.flatMap_congr fun part hp => ?_
    obtain ⟨path, -, hpath⟩ := exists_of_mem_right each hp
    simp [summands_pathQuery hpath]
  unfold rootPart at hroot
  refine ⟨root, parts, ?_, ?_, each⟩
  · rw [concatAll_summands all, List.flatMap_append, single]
    split at hroot
    · obtain ⟨r, hr, rfl⟩ := map_eq_ok_iff.1 hroot
      rw [List.flatMap_singleton, summands_rootQuery hr]
    · cases hroot
      rfl
  · split at hroot
    · next visible =>
      obtain ⟨r, hr, rfl⟩ := map_eq_ok_iff.1 hroot
      rw [if_pos visible]
      exact ⟨r, hr, rfl⟩
    · next hidden =>
      cases hroot
      rw [if_neg hidden]

/-! ## Expanded nodes -/

theorem nil_mem_expandedPaths_iff : [] ∈ t.expandedPaths openPaths expandRoot ↔
    expandRoot = true ∨ openPaths ≠ .empty ∨ t.spec.showRoot = false := by
  unfold expandedPaths
  split
  · next expanded =>
    simpa [OpenPaths.shown, ← OpenPaths.isEmpty_eq_true_iff, or_assoc] using expanded
  · next closed => simpa [← OpenPaths.isEmpty_eq_true_iff, or_assoc] using closed

/-- Below the root, the expanded nodes are the open ones that are not too deep. -/
theorem cons_mem_expandedPaths_iff {key : PathKey} {path : List PathKey} :
    key :: path ∈ t.expandedPaths openPaths expandRoot ↔
      (key :: path).length ≤ t.depth ∧ openPaths.isOpen (key :: path) = true := by
  unfold expandedPaths
  split
  · simp [OpenPaths.mem_shown_iff]
  · next closed =>
    have empty : openPaths.forest = .leaf := by
      simp only [Bool.or_eq_true, not_or, Bool.not_eq_true] at closed
      simpa [OpenPaths.isEmpty] using closed.1.2
    simp [OpenPaths.isOpen, empty, Forest.find?, Forest.child?]

theorem pairwise_expandedPaths (t : PivotTree) (openPaths : OpenPaths) (expandRoot : Bool) :
    (t.expandedPaths openPaths expandRoot).Pairwise (List.Lex PathKey.Before) := by
  unfold expandedPaths
  split
  · exact openPaths.pairwise_shown t.depth
  · exact .nil

/-- The children of the root are shown if the root is expanded, if a node below it is open, or if it
is not shown; those of other nodes if these are open and not too deep. -/
theorem mem_expandedPaths_iff {path : List PathKey} :
    path ∈ t.expandedPaths openPaths expandRoot ↔
      (expandRoot = true ∨ openPaths ≠ .empty ∨ t.spec.showRoot = false) ∧
        (path = [] ∨ path.length ≤ t.depth ∧ openPaths.isOpen path = true) := by
  cases path with
  | nil => simp [nil_mem_expandedPaths_iff]
  | cons key path =>
    rw [cons_mem_expandedPaths_iff]
    constructor
    · rintro ⟨short, isOpen⟩
      refine ⟨.inr (.inl ?_), .inr ⟨short, isOpen⟩⟩
      rintro rfl
      simp [OpenPaths.isOpen, OpenPaths.empty, Forest.find?, Forest.child?] at isOpen
    · rintro ⟨-, none | shown⟩
      · cases none
      · exact shown

/-- What lies deeper than the tree does not matter. -/
theorem expandedPaths_congr {others : OpenPaths} (empty : others = .empty ↔ openPaths = .empty)
    (same : ∀ path, path.length ≤ t.depth → others.isOpen path = openPaths.isOpen path) :
    t.expandedPaths others expandRoot = t.expandedPaths openPaths expandRoot := by
  have irrefl : Std.Irrefl (List.Lex PathKey.Before) :=
    ⟨List.lex_irrefl PathKey.Before.irrefl⟩
  have antisymm : Std.Antisymm (List.Lex PathKey.Before) :=
    ⟨fun a b before after => absurd after (List.lex_asymm
      (fun {x _} h h' => PathKey.Before.irrefl x (h.trans h')) before)⟩
  refine (t.pairwise_expandedPaths others expandRoot).eq_of_mem_iff
    (t.pairwise_expandedPaths openPaths expandRoot) fun path => ?_
  rw [mem_expandedPaths_iff, mem_expandedPaths_iff, ne_eq, empty]
  refine and_congr_right fun _ => or_congr_right (and_congr_right fun short => ?_)
  rw [same path short]

/-- No children are shown twice. -/
theorem nodup_expandedPaths (t : PivotTree) (openPaths : OpenPaths) (expandRoot : Bool) :
    (t.expandedPaths openPaths expandRoot).Nodup := by
  refine (t.pairwise_expandedPaths openPaths expandRoot).imp fun {a b} before same => ?_
  exact List.lex_irrefl PathKey.Before.irrefl a (same ▸ before)

/-! ## Depth and root of the rows -/

/-- All rows of a query show this depth, and whether they are the root. -/
def Marks (t : PivotTree) (q : Query) (depth : Nat) (isRoot : Bool) : Prop :=
  ∀ (V : Type) (E : Engine V) (db : Tables V), ∀ row ∈ q.rows E db,
    E.cell t.outputColumns row depthColumn = E.constant (.int (Int64.ofNat depth)) ∧
      E.cell t.outputColumns row rootColumn = E.constant (.bool isRoot)

theorem marks_finish {q r : Query} {depth known : Nat} {label : Expr} {isRoot : Bool}
    (h : t.finish q depth label isRoot known = .ok r)
    (mem : ∀ l ∈ t.levels, l.1 < known → l.2 ∈ q.schema.columns) : t.Marks r depth isRoot := by
  intro V E db row hrow
  obtain ⟨-, each⟩ := forall₂_finish E db h mem
  obtain ⟨_, -, finished⟩ := exists_of_mem_right each hrow
  exact ⟨finished.depth, finished.root⟩

theorem marks_pathQuery (sound : t.Sound) {path : List Scalar} {q : Query}
    (h : t.pathQuery path = .ok q) : t.Marks q (path.length + 1) false := by
  obtain ⟨short, rows, filtered, children⟩ := pathQuery_eq_ok_iff.1 h
  have same : rows.schema = t.base.schema := by
    obtain ⟨r, hr, same⟩ := exists_filterPath sound path short
    rwa [Except.ok.inj (hr.symm.trans filtered)] at same
  have deepest (last : t.pivots[path.length]? = none) : path.length = t.depth :=
    Nat.le_antisymm short (List.getElem?_eq_none_iff.1 last)
  cases children with
  | groups _ grouped finished =>
    exact marks_finish finished fun l hl => sound.mem_of_groupRows same grouped hl
  | leaves last _ finished =>
    rw [deepest last]
    exact marks_finish finished fun l hl _ =>
      same ▸ sound.pivots_mem l.2 (List.mem_of_getElem? (mem_levels.1 hl))
  | hidden last _ grouped emptied finished =>
    obtain ⟨_, rfl⟩ := Query.filter_eq_ok_iff.1 emptied
    rw [deepest last]
    exact marks_finish finished fun l hl => sound.mem_of_groupRows same grouped hl

/-! ## All together -/

/-- The rows of a tree can be found, whatever is open, if and only if no base column is named like a
path column of the tree. -/
theorem exists_treeQuery_iff {base : Query} {spec : PivotSpec} (made : make base spec = .ok t) :
    (∃ q, t.treeQuery openPaths expandRoot = .ok q) ↔
      ∀ c ∈ base.schema.columns, ∀ n < t.depth, ¬ SameName c.id (pathColumn n) := by
  obtain ⟨-, -, -, extended, -⟩ := make_eq_ok made
  constructor
  · rintro ⟨q, hq⟩ c hc n hn
    obtain ⟨root, parts, hroot, each, all⟩ := treeQuery_eq_ok_iff.1 hq
    -- There is a part, as nothing cannot be concatenated.
    have nonempty : root ++ parts ≠ [] := by
      intro none
      rw [none, concatAll] at all
      cases all
    obtain ⟨part, mem⟩ := List.exists_mem_of_ne_nil _ nonempty
    suffices names : List.Forall₂ SameName part.schema.ids t.outputColumns from
      not_sameName_of_names names (Query.mem_extend extended hc) hn
    obtain mem | mem := List.mem_append.1 mem
    · unfold rootPart at hroot
      split at hroot
      · obtain ⟨r, hr, rfl⟩ := map_eq_ok_iff.1 hroot
        obtain ⟨groups, -, finished⟩ := rootQuery_eq_ok_iff.1 hr
        rw [List.mem_singleton.1 mem]
        exact names_finish finished
      · cases hroot
        cases mem
    · obtain ⟨path, -, hpath⟩ := exists_of_mem_right each mem
      exact names_pathQuery hpath
  · intro paths
    obtain ⟨q, hq, -⟩ := exists_treeQuery_of_free (sound_of_make made) (free_of_make made paths)
      openPaths expandRoot
    exact ⟨q, hq⟩

theorem depth_of_make {base : Query} {spec : PivotSpec} (made : make base spec = .ok t) :
    t.depth = spec.pivotColumns.length := by
  obtain ⟨-, pivots, -⟩ := make_eq_ok made
  obtain ⟨-, -, -, each⟩ := resolvePivots_spec pivots
  exact each.length_eq.symm

/-- The query for the rows of a tree concatenates the root, if that is shown, and the children of
the expanded nodes, which are found by the path to each node alone. The expanded nodes are listed in
pre-order and without repetition: the root if it has to be, then the open nodes down to the depth of
the tree. Only rows of the root have depth zero and are marked as the root. What is open decides
neither whether there is a query nor, below the depth of the tree, what it is. -/
theorem treeQuery_summands {base : Query} {spec : PivotSpec} (made : make base spec = .ok t)
    (openPaths : OpenPaths) (expandRoot : Bool) :
    (∀ q, t.treeQuery openPaths expandRoot = .ok q →
      t.Concatenates (t.expandedPaths openPaths expandRoot) q) ∧
    (t.expandedPaths openPaths expandRoot).Pairwise (List.Lex PathKey.Before) ∧
    (∀ path, path ∈ t.expandedPaths openPaths expandRoot ↔
      (expandRoot = true ∨ openPaths ≠ .empty ∨ spec.showRoot = false) ∧
        (path = [] ∨ path.length ≤ spec.pivotColumns.length ∧ openPaths.isOpen path = true)) ∧
    (∀ r, t.rootQuery = .ok r → t.Marks r 0 true) ∧
    (∀ path part, t.pathQuery path = .ok part → t.Marks part (path.length + 1) false) ∧
    ((∃ q, t.treeQuery openPaths expandRoot = .ok q) ↔
      ∀ c ∈ base.schema.columns, ∀ n < t.depth, ¬ SameName c.id (pathColumn n)) ∧
    ∀ others : OpenPaths, (others = .empty ↔ openPaths = .empty) →
      (∀ path, path.length ≤ spec.pivotColumns.length →
        others.isOpen path = openPaths.isOpen path) →
      t.treeQuery others expandRoot = t.treeQuery openPaths expandRoot := by
  have depth := depth_of_make made
  obtain ⟨-, -, -, -, -, -, layout⟩ := make_eq_ok made
  refine ⟨fun q => concatenates_of_treeQuery, t.pairwise_expandedPaths openPaths expandRoot,
    fun path => ?_, fun r root => ?_, fun path part => marks_pathQuery (sound_of_make made),
    exists_treeQuery_iff made, fun others empty same => ?_⟩
  · rw [mem_expandedPaths_iff, layout, depth]
  · obtain ⟨groups, -, finished⟩ := rootQuery_eq_ok_iff.1 root
    exact marks_finish finished fun l _ below => absurd below (Nat.not_lt_zero _)
  · unfold treeQuery
    rw [expandedPaths_congr empty fun path short => same path (depth ▸ short)]

def openTooDeep : OpenPaths := openRegions.openPath [some "north", some "7", some "x"]

theorem treeQuery_summands_productSales : ∃ t, make productSales byRegion = .ok t ∧
    ∃ q, t.treeQuery openTooDeep false = .ok q ∧ q.summands.length = 6 ∧
      t.Concatenates
        [[], [none], [none, some "7"], [some "north"], [some "north", some "7"]] q := by
  obtain ⟨t, made, listed, visible⟩ : ∃ t, make productSales byRegion = .ok t ∧
      t.expandedPaths openTooDeep false =
        [[], [none], [none, some "7"], [some "north"], [some "north", some "7"]] ∧
      t.spec.showRoot = true := ⟨_, rfl, by decide +kernel, rfl⟩
  have free : productSales.schema.Unnumbered := by decide +kernel
  obtain ⟨parts, -, -, -, -, found, -⟩ := treeQuery_summands made openTooDeep false
  obtain ⟨q, hq⟩ := found.2 fun c hc n _ same => (free c hc).1 (begins_numbered same)
  have all := parts q hq
  rw [listed] at all
  refine ⟨t, made, q, hq, ?_, all⟩
  obtain ⟨root, parts, summands, one, each⟩ := all
  rw [if_pos visible] at one
  obtain ⟨r, -, rfl⟩ := one
  rw [summands, List.length_append, ← each.length_eq]
  rfl

end PivotTree

end Crosstab
