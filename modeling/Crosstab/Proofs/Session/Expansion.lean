import Crosstab.Proofs.Pivot.Expansion
import Crosstab.Proofs.Session.Consistency

namespace Crosstab

theorem PivotTree.count_expandedPaths {t : PivotTree} {openPaths : OpenPaths} {expandRoot : Bool}
    {path : List PathKey} : (t.expandedPaths openPaths expandRoot).count path = 1 ↔
      path ∈ t.expandedPaths openPaths expandRoot := by
  rw [← List.count_pos_iff]
  have once := List.nodup_iff_count_le_one.1 (t.nodup_expandedPaths openPaths expandRoot) path
  omega

namespace Session

variable {base : Query} {spec : PivotSpec} {s : Session} {log : List Exchange}

/-- A node that is not too deep is open exactly if the tree shows its children. -/
theorem isOpen_iff_mem {tree : PivotTree} (made : PivotTree.make s.base s.spec = .ok tree)
    {path : List PathKey} (short : path.length ≤ s.spec.pivotColumns.length) :
    s.isOpen path = true ↔ path ∈ tree.expandedPaths s.openPaths s.rootOpen := by
  obtain ⟨-, -, -, -, -, -, layout⟩ := PivotTree.make_eq_ok made
  rw [← PivotTree.depth_of_make made] at short
  cases path with
  | nil =>
    rw [PivotTree.nil_mem_expandedPaths_iff, layout, isOpen, if_pos rfl]
    simp [← OpenPaths.isEmpty_eq_true_iff, or_assoc]
  | cons key path =>
    rw [PivotTree.cons_mem_expandedPaths_iff, isOpen, if_neg (List.cons_ne_nil _ _)]
    simp only [short, true_and]

/-- Where the first half of a refresh gives a query, it is the sorted one of the present layout. -/
theorem Reached.sortedTreeQuery_of_prepare (h : Reached base spec s log) {query : Query}
    {next : Session} (prepared : s.prepare = (.ok query, next)) :
    ∃ tree, PivotTree.make s.base s.spec = .ok tree ∧
      tree.sortedTreeQuery s.openPaths s.rootOpen = .ok query := by
  unfold prepare at prepared
  split at prepared
  · cases prepared
  · next tree found =>
    exact ⟨tree, h.consistent.currentTree found, congrArg Prod.fst prepared⟩

/-- In every state that a session can reach, if a refresh gets as far as its query, then that sorts
the rows of a query which concatenates the children of some nodes: each node not deeper than the
tree, named by the keys of texts or of values, is one of these exactly once if the session says that
it is open, and else it is none of them. The children of the root are the rows of depth one. -/
theorem isOpen_iff_shown (h : Reached base spec s log) {query : Query} {next : Session}
    (prepared : s.prepare = (.ok query, next)) :
    ∃ tree rows, PivotTree.make s.base s.spec = .ok tree ∧
      tree.sortedTreeQuery s.openPaths s.rootOpen = .ok query ∧
      tree.treeQuery s.openPaths s.rootOpen = .ok rows ∧
      tree.Concatenates (tree.expandedPaths s.openPaths s.rootOpen) rows ∧
      (∀ path, path.length ≤ s.spec.pivotColumns.length →
        (s.isOpen path = true ↔ (tree.expandedPaths s.openPaths s.rootOpen).count path = 1) ∧
        (s.isOpen path = false ↔ (tree.expandedPaths s.openPaths s.rootOpen).count path = 0)) ∧
      ∀ part, tree.pathQuery [] = .ok part → tree.Marks part 1 false := by
  obtain ⟨tree, made, sorted⟩ := h.sortedTreeQuery_of_prepare prepared
  obtain ⟨rows, -, -, found, -⟩ := PivotTree.sortedTreeQuery_eq_ok_iff.1 sorted
  refine ⟨tree, rows, made, sorted, found, PivotTree.concatenates_of_treeQuery found,
    fun path short => ?_, fun part => PivotTree.marks_pathQuery (PivotTree.sound_of_make made)⟩
  rw [PivotTree.count_expandedPaths, List.count_eq_zero, ← isOpen_iff_mem made short,
    Bool.not_eq_true]
  exact ⟨Iff.rfl, Iff.rfl⟩

/-- A node is opened and closed by other pivots, a leaf is opened, all is closed, and another leaf
is opened below a root that is then hidden. -/
def regroupEvents : List Event :=
  [.openPath [none, some "7"], .setPivots ["Product"], .openPath [some "7", some "x"],
    .closePath [], .openPath [some "8", none], .setShowRoot false]

theorem isOpen_iff_shown_productSales : ∃ s log,
    Reached PivotTree.productSales PivotTree.byRegion s log ∧
    ∃ query next, s.prepare = (.ok query, next) ∧
    ∃ (tree : PivotTree) (rows : Query),
      tree.Concatenates (tree.expandedPaths s.openPaths s.rootOpen) rows ∧
      (s.isOpen [some "8"] = true ∧
        (tree.expandedPaths s.openPaths s.rootOpen).count [some "8"] = 1) ∧
      s.isOpen [some "7"] = false ∧
        (tree.expandedPaths s.openPaths s.rootOpen).count [some "7"] = 0 := by
  obtain ⟨first, started⟩ : ∃ s, start PivotTree.productSales PivotTree.byRegion = .ok s := ⟨_, rfl⟩
  have shown : (start PivotTree.productSales PivotTree.byRegion).toOption.map (fun s =>
      let now := (s.runs [] regroupEvents).1
      (now.prepare.1.toOption.isSome, now.isOpen [some "8"], now.isOpen [some "7"],
        now.spec.pivotColumns.length)) = some (true, true, false, 1) := by
    decide +kernel
  rw [started] at shown
  simp only [Except.toOption, Option.map_some, Option.some.injEq, Prod.mk.injEq] at shown
  obtain ⟨prepared, eight, seven, one⟩ := shown
  have reached := (Reached.start started).runs regroupEvents
  cases asked : (first.runs [] regroupEvents).1.prepare with
  | mk answer next =>
    rw [asked] at prepared
    cases answer with
    | error e => cases prepared
    | ok query =>
      obtain ⟨tree, rows, -, -, -, parts, agree, -⟩ := isOpen_iff_shown reached asked
      exact ⟨_, _, reached, query, next, asked, tree, rows, parts,
        ⟨eight, (agree [some "8"] (by simp [one])).1.1 eight⟩,
        seven, (agree [some "7"] (by simp [one])).2.1 seven⟩

end Session

end Crosstab
