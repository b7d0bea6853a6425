import Crosstab.Proofs.Pivot.Ranks

namespace Crosstab

/-- Two schemas have the same columns up to types, and these differ at most as integers and reals
do. -/
def Schema.Aligned (s r : Schema) : Prop :=
  List.Forall₂ (fun c d => c.id = d.id ∧
    (c.type = d.type ∨ (c.type.isNumeric = true ∧ d.type.isNumeric = true))) s.columns r.columns

namespace PivotTree

/-- A schema has the columns of the tree's rows and, after them, the named ones. -/
structure Shaped (t : PivotTree) (more : List String) (s : Schema) : Prop where
  ids : s.ids = t.outputColumns ++ more
  depth : s.type? depthColumn = some .integer
  label : s.type? labelColumn = some .text
  root : s.type? rootColumn = some .boolean
  path : ∀ i p, t.pivots[i]? = some p → s.type? (pathColumn i) = some p.type

/-- The queries that yield rows of the tree. -/
def IsPart (t : PivotTree) (q : Query) : Prop :=
  t.rootQuery = .ok q ∨ ∃ path, path.length ≤ t.depth ∧ t.pathQuery path = .ok q

variable {t : PivotTree}

theorem Fits.shaped {part s : Schema} (fits : t.Fits part) {more : List Column}
    (columns : s.columns = part.columns ++ more) : t.Shaped (more.map (·.id)) s := by
  have bookkeeping (c : Column) (h : c ∈ t.bookkeeping) : s.type? c.id = some c.type :=
    Schema.type?_of_mem (columns ▸ List.mem_append_left _ (fits.mem_of_mem_bookkeeping h))
  refine ⟨?_, ?_, ?_, ?_, ?_⟩
  · rw [← fits.ids, Schema.ids, columns, List.map_append, Schema.ids]
  · exact bookkeeping (.named depthColumn .integer) (by simp [PivotTree.bookkeeping])
  · exact bookkeeping (.named labelColumn .text) (by simp [PivotTree.bookkeeping])
  · exact bookkeeping (.named rootColumn .boolean) (by simp [PivotTree.bookkeeping])
  · intro i p hp
    refine bookkeeping (.named (pathColumn i) p.type) (List.mem_append_right _ ?_)
    exact List.mem_map.2 ⟨(i, p), mem_levels.2 hp, rfl⟩

theorem aligned_shown (sound : t.Sound) {columns left right : List Column}
    (hl : List.Forall₂ (fun b c => c.id = b.id ∧ t.Allows b c.type) columns left)
    (hr : List.Forall₂ (fun b c => c.id = b.id ∧ t.Allows b c.type) columns right) :
    List.Forall₂ (fun c d => c.id = d.id ∧
      (c.type = d.type ∨ (c.type.isNumeric = true ∧ d.type.isNumeric = true))) left right := by
  induction hl generalizing right with
  | nil => cases hr; exact .nil
  | cons first _ ih =>
    obtain _ | ⟨second, others⟩ := hr
    obtain ⟨z, hz, -⟩ := Allows.widen sound first.2 second.2
    refine .cons ⟨first.1.trans second.1.symm, ?_⟩ (ih others)
    exact DataType.widen_isSome_iff.1 (Option.isSome_iff_exists.2 ⟨z, hz⟩)

theorem Fits.aligned {s r : Schema} (sound : t.Sound) (hs : t.Fits s) (hr : t.Fits r) :
    s.Aligned r := by
  obtain ⟨left, hl, leftFits⟩ := hs.columns
  obtain ⟨right, hr, rightFits⟩ := hr.columns
  rw [Schema.Aligned, hl, hr]
  exact List.rel_append (aligned_shown sound leftFits rightFits)
    (List.forall₂_same.2 fun c _ => ⟨rfl, .inl rfl⟩)

theorem IsPart.fits (sound : t.Sound) (free : ∀ c ∈ t.base.schema.columns, Apart c.id) {q : Query}
    (h : t.IsPart q) : t.Fits q.schema := by
  obtain root | ⟨path, short, hq⟩ := h
  · obtain ⟨r, hr, fits⟩ := exists_rootQuery sound free
    rwa [← Except.ok.inj (hr.symm.trans root)]
  · obtain ⟨r, hr, fits⟩ := exists_pathQuery sound free path short
    rwa [← Except.ok.inj (hr.symm.trans hq)]

/-- A layout that fits a base query whose columns are not named like the numbered ones of the tree
gives a tree that yields all its queries, with the columns of the tree and types that fit. -/
theorem queries_of_make {base : Query} {spec : PivotSpec} (h : make base spec = .ok t)
    (free : base.schema.Unnumbered) :
    List.Forall₂ (fun name p => base.schema.find? name = some p) spec.pivotColumns t.pivots ∧
    (∃ q, t.rootQuery = .ok q ∧ t.Shaped [] q.schema) ∧
    (∀ path, path.length ≤ spec.pivotColumns.length →
      ∃ q, t.pathQuery path = .ok q ∧ t.Shaped [] q.schema) ∧
    (∀ d, 1 ≤ d → d ≤ spec.pivotColumns.length → ∃ q, t.rankQuery d = .ok q ∧
      q.schema.ids = (List.range d).map pathColumn ++ [rankColumn d] ∧
      (∀ i < d, ∀ p, t.pivots[i]? = some p → q.schema.type? (pathColumn i) = some p.type) ∧
      q.schema.type? (rankColumn d) = some .integer) ∧
    (∀ openPaths expandRoot, ∃ q, t.treeQuery openPaths expandRoot = .ok q ∧
      t.Shaped [] q.schema) ∧
    (∀ openPaths expandRoot, ∃ q, t.sortedTreeQuery openPaths expandRoot = .ok q ∧
      t.Shaped (t.depths.map rankColumn) q.schema ∧
      ∀ d ∈ t.depths, q.schema.type? (rankColumn d) = some .integer) ∧
    ∀ q r, t.IsPart q → t.IsPart r → q.schema.Aligned r.schema := by
  have sound := sound_of_make h
  have apart := apart_of_make h free
  obtain ⟨-, pivots, -⟩ := make_eq_ok h
  obtain ⟨-, -, -, each⟩ := resolvePivots_spec pivots
  have depth : spec.pivotColumns.length = t.depth := each.length_eq
  have shaped {s : Schema} (fits : t.Fits s) : t.Shaped [] s :=
    fits.shaped (List.append_nil _).symm
  refine ⟨each, ?_, ?_, ?_, ?_, ?_, ?_⟩
  · obtain ⟨q, hq, fits⟩ := exists_rootQuery sound apart
    exact ⟨q, hq, shaped fits⟩
  · intro path short
    obtain ⟨q, hq, fits⟩ := exists_pathQuery sound apart path (depth ▸ short)
    exact ⟨q, hq, shaped fits⟩
  · intro d pos deep
    obtain ⟨q, hq, columns⟩ := exists_rankQuery sound apart pos (depth ▸ deep)
    refine ⟨q, hq, ?_, ?_, ?_⟩
    · rw [Schema.ids, columns, List.map_append, ids_pathColumns (depth ▸ deep)]
      rfl
    · intro i below p hp
      refine Schema.type?_of_mem (c := .named (pathColumn i) p.type) ?_
      rw [columns]
      refine List.mem_append_left _ (List.mem_map.2 ⟨(i, p), ?_, rfl⟩)
      exact mem_take_levels.2 ⟨mem_levels.2 hp, below⟩
    · exact Schema.type?_of_mem (c := .named (rankColumn d) .integer) (by simp [columns])
  · intro openPaths expandRoot
    obtain ⟨q, hq, fits⟩ := exists_treeQuery sound apart openPaths expandRoot
    exact ⟨q, hq, shaped fits⟩
  · intro openPaths expandRoot
    obtain ⟨q, part, hq, fits, columns⟩ := exists_sortedTreeQuery sound apart openPaths expandRoot
    have ids : (rankColumns t.depth).map (·.id) = t.depths.map rankColumn := by
      rw [rankColumns, depths, List.map_map, List.map_map]
      rfl
    refine ⟨q, hq, ids ▸ fits.shaped columns, ?_⟩
    intro d hd
    obtain ⟨i, hi, rfl⟩ := List.mem_map.1 hd
    refine Schema.type?_of_mem (c := .named (rankColumn (i + 1)) .integer) ?_
    exact columns ▸ List.mem_append_right _ (List.mem_map.2 ⟨i, hi, rfl⟩)
  · exact fun q r hq hr => (hq.fits sound apart).aligned sound (hr.fits sound apart)

def productSales : Query where
  schema := ⟨[.named "region" .text, .named "product" .integer, .named "amount" .integer],
    by decide, by decide⟩
  plan := .table "productSales" _ (by decide)

/-- Sales by region and product, with the average amount of every group above the sales. -/
def byRegion : PivotSpec where
  pivotColumns := ["Region", "product"]
  leafColumn := some "amount"
  showRoot := true
  showLeafRows := true
  sortKey := [⟨"rec", false⟩]
  aggregations := ⟨[("AMOUNT", .avg)], by decide⟩

def openRegions : OpenPaths := (OpenPaths.empty.openPath [some "north"]).openPath [none, some "7"]

theorem queries_of_make_productSales : productSales.schema.Unnumbered ∧
    ∃ t, make productSales byRegion = .ok t ∧
      ∃ q, t.sortedTreeQuery openRegions false = .ok q ∧ q.schema.ids =
        ["region", "product", "amount", "Rec", "_depth", "_pivot", "_isRoot", "_path0", "_path1",
          "_sortVal_1", "_sortVal_2"] := by
  have free : productSales.schema.Unnumbered := by decide +kernel
  obtain ⟨t, ht, columns⟩ : ∃ t, make productSales byRegion = .ok t ∧
      t.outputColumns ++ t.depths.map rankColumn =
        ["region", "product", "amount", "Rec", "_depth", "_pivot", "_isRoot", "_path0", "_path1",
          "_sortVal_1", "_sortVal_2"] := ⟨_, rfl, by decide +kernel⟩
  obtain ⟨-, -, -, -, -, sorted, -⟩ := queries_of_make ht free
  obtain ⟨q, hq, shaped, -⟩ := sorted openRegions false
  exact ⟨free, t, ht, q, hq, shaped.ids.trans columns⟩

end PivotTree

end Crosstab
