import Crosstab.Proofs.Pivot.Children

/-!
# The order of display

The sorted tree lists every node right before what lies below it. Ranks are given to all nodes of a
depth at once and are null above it, so this order comes out of the sort by ranks and depth alone.

* `PivotTree.Shown` is what a row of the sorted tree shows, its ranks included;
* `PivotTree.Shown.tied_of_samePath` and `PivotTree.Shown.of_tied` say that ranks are tied exactly
  where paths are the same;
* `PivotTree.Displayed` is the order, `PivotTree.Arranged` what it follows from;
* `PivotTree.sortedTreeQuery_displayed` is the statement.
-/

namespace Crosstab

variable {V : Type} {E : Engine V} {db : Tables V} {le : V → V → Prop}

namespace PivotTree

variable {t : PivotTree}

/-! ## The parts of the tree -/

/-- The rows of all parts stand one after the other. -/
theorem concatAll_rows (E : Engine V) (db : Tables V) {parts : List Query} {q : Query}
    (h : concatAll parts = .ok q) : q.rows E db = parts.flatMap (Query.rows E db) :=
  concatAll_flatMap (fun _ _ _ joined => (Query.concat_rows E db joined).2) h

/-- A row shows a node of a depth in all base columns and along its path. -/
def ShowsGroup (E : Engine V) (db : Tables V) (t : PivotTree) (names : List String) (row : List V)
    (depth : Nat) : Prop :=
  ∃ nodes, t.groupRows t.base depth = .ok nodes ∧ ∃ node ∈ nodes.rows E db,
    (∀ b ∈ t.base.schema.columns, E.cell names row b.id = E.cell nodes.schema.ids node b.id) ∧
    ∀ l ∈ t.levels, l.1 < depth →
      E.cell names row (pathColumn l.1) = E.cell nodes.schema.ids node l.2.id

/-- The children of a node lie below the root, and show nodes if they are no base rows. -/
theorem rows_pathQuery (sound : t.Sound) (comparing : E.Comparing) {path : List Scalar} {q : Query}
    (h : t.pathQuery path = .ok q) : ∀ row ∈ q.rows E db, ∃ n, 0 < n ∧ n ≤ t.depth + 1 ∧
      E.cell t.outputColumns row depthColumn = E.constant (.int (Int64.ofNat n)) ∧
      (n ≤ t.depth → t.ShowsGroup E db t.outputColumns row n) := by
  obtain ⟨short, rows, filtered, children⟩ := pathQuery_eq_ok_iff.1 h
  obtain ⟨same, -⟩ := rows_filterPath comparing db short filtered
  intro next hn
  have deepest (depthCell : E.cell t.outputColumns next depthColumn =
      E.constant (.int (Int64.ofNat (t.depth + 1)))) : ∃ n, 0 < n ∧ n ≤ t.depth + 1 ∧
      E.cell t.outputColumns next depthColumn = E.constant (.int (Int64.ofNat n)) ∧
      (n ≤ t.depth → t.ShowsGroup E db t.outputColumns next n) :=
    ⟨t.depth + 1, Nat.succ_pos _, Nat.le_refl _, depthCell, fun le => by omega⟩
  cases children with
  | groups pivot grouped finished =>
    have deep : path.length + 1 ≤ t.depth := (List.getElem?_eq_some_iff.1 pivot).1
    obtain ⟨-, each⟩ := forall₂_finish E db finished
      fun l hl => sound.mem_of_groupRows same grouped hl
    obtain ⟨row, hrow, finished⟩ := exists_of_mem_right each hn
    obtain ⟨nodes, hnodes, schema, sub⟩ := exists_nodes comparing (Nat.succ_pos path.length)
      (Nat.le_succ _) deep db short filtered grouped
    refine ⟨path.length + 1, Nat.succ_pos _, by omega, finished.depth, fun _ =>
      ⟨nodes, hnodes, row, sub row hrow, fun b hb => ?_, fun l hl below => ?_⟩⟩
    · rw [schema, finished.keeps b.id (mem_outputColumns_base hb)
        (sound.has_of_groupRows same grouped hb)]
    · rw [schema, finished.path l hl, if_pos below]
  | leaves _ _ finished =>
    have known (l : Nat × Column) (hl : l ∈ t.levels) : l.2 ∈ rows.schema.columns :=
      same ▸ sound.pivots_mem l.2 (List.mem_of_getElem? (mem_levels.1 hl))
    obtain ⟨-, each⟩ := forall₂_finish E db finished fun l hl _ => known l hl
    obtain ⟨row, -, finished⟩ := exists_of_mem_right each hn
    exact deepest finished.depth
  | hidden _ _ grouped emptied finished =>
    obtain ⟨kept, -⟩ := Query.filter_rows E db emptied
    obtain ⟨-, each⟩ := forall₂_finish E db finished
      fun l hl deep => kept ▸ sound.mem_of_groupRows same grouped hl deep
    obtain ⟨row, -, finished⟩ := exists_of_mem_right each hn
    exact deepest finished.depth

theorem root_finished {r : Query} (h : t.rootQuery = .ok r) : ∀ row ∈ r.rows E db,
    E.cell t.outputColumns row depthColumn = E.constant (.int (Int64.ofNat 0)) ∧
      E.cell t.outputColumns row rootColumn = E.constant (.bool true) := by
  obtain ⟨g, -, finished⟩ := rootQuery_eq_ok_iff.1 h
  obtain ⟨-, each⟩ := forall₂_finish E db finished fun l _ below => absurd below (Nat.not_lt_zero _)
  intro row hrow
  obtain ⟨_, -, finished⟩ := exists_of_mem_right each hrow
  exact ⟨finished.depth, finished.root⟩

section
variable (sound : t.Sound) {openPaths : OpenPaths} {expandRoot : Bool} {tree : Query}
  (ht : t.treeQuery openPaths expandRoot = .ok tree)
include sound ht

/-- Every row of the tree lies at a depth, and shows a node if it is neither the root nor a base
row. -/
theorem rows_treeQuery (comparing : E.Comparing) : ∀ row ∈ tree.rows E db, ∃ n ≤ t.depth + 1,
    E.cell t.outputColumns row depthColumn = E.constant (.int (Int64.ofNat n)) ∧
      (0 < n → n ≤ t.depth → t.ShowsGroup E db t.outputColumns row n) := by
  obtain ⟨root, parts, hroot, each, all⟩ := treeQuery_eq_ok_iff.1 ht
  intro row hrow
  rw [concatAll_rows E db all, List.mem_flatMap] at hrow
  obtain ⟨part, hpart, hrow⟩ := hrow
  obtain hpart | hpart := List.mem_append.1 hpart
  · unfold rootPart at hroot
    split at hroot
    · obtain ⟨r, hr, rfl⟩ := map_eq_ok_iff.1 hroot
      rw [List.mem_singleton.1 hpart] at hrow
      have depthCell := (root_finished hr row hrow).1
      exact ⟨0, Nat.zero_le _, depthCell, fun pos => absurd pos (Nat.lt_irrefl _)⟩
    · cases hroot
      cases hpart
  · obtain ⟨path, -, hpath⟩ := exists_of_mem_right each hpart
    obtain ⟨n, -, bound, depthCell, group⟩ := rows_pathQuery sound comparing hpath row hrow
    exact ⟨n, bound, depthCell, fun _ => group⟩

/-- The root stands first in the tree, if the layout shows it, and every other row lies below it. -/
theorem exists_root (comparing : E.Comparing) (db : Tables V) {base : Query} {spec : PivotSpec}
    (made : make base spec = .ok t) (visible : t.spec.showRoot = true) :
    ∃ root rest, tree.rows E db = root :: rest ∧
      E.cell t.outputColumns root depthColumn = E.constant (.int (Int64.ofNat 0)) ∧
      E.cell t.outputColumns root rootColumn = E.constant (.bool true) ∧
      ∀ row ∈ rest, ∃ n, 0 < n ∧ n ≤ t.depth + 1 ∧
        E.cell t.outputColumns row depthColumn = E.constant (.int (Int64.ofNat n)) := by
  obtain ⟨root, parts, hroot, each, all⟩ := treeQuery_eq_ok_iff.1 ht
  unfold rootPart at hroot
  rw [if_pos visible] at hroot
  obtain ⟨r, hr, rfl⟩ := map_eq_ok_iff.1 hroot
  obtain ⟨row, one, -⟩ := rootQuery_rows made E db hr
  obtain ⟨depthCell, rootCell⟩ := root_finished hr row (one ▸ List.mem_singleton.2 rfl)
  refine ⟨row, parts.flatMap (Query.rows E db), ?_, depthCell, rootCell, fun other ho => ?_⟩
  · rw [concatAll_rows E db all, List.singleton_append, List.flatMap_cons, one,
      List.singleton_append]
  · obtain ⟨part, hpart, ho⟩ := List.mem_flatMap.1 ho
    obtain ⟨path, -, hpath⟩ := exists_of_mem_right each hpart
    obtain ⟨n, pos, bound, depthCell, -⟩ := rows_pathQuery sound comparing hpath other ho
    exact ⟨n, pos, bound, depthCell⟩

end

/-! ## Rows of the sorted tree -/

/-- A row of the sorted tree lies at a depth. It has a rank at exactly the depths from one to that,
and shows a node if it is neither the root nor a base row. -/
structure Shown (E : Engine V) (db : Tables V) (t : PivotTree) (s : Schema) (row : List V)
    (n : Nat) : Prop where
  bound : n ≤ t.depth + 1
  depth : E.cell s.ids row depthColumn = E.constant (.int (Int64.ofNat n))
  above : ∀ i < t.depth, n ≤ i → E.cell s.ids row (rankColumn (i + 1)) = E.null
  rank : ∀ i < t.depth, i < n → t.RankAt E db (i + 1) (fun i => E.cell s.ids row (pathColumn i))
    (E.cell s.ids row (rankColumn (i + 1)))
  group : 0 < n → n ≤ t.depth → t.ShowsGroup E db s.ids row n

/-- Two rows show the same path down to a depth. -/
def SamePath (E : Engine V) (s : Schema) (depth : Nat) (a b : List V) : Prop :=
  ∀ i < depth, E.same (E.cell s.ids a (pathColumn i)) (E.cell s.ids b (pathColumn i)) = true

theorem SamePath.mono {s : Schema} {m n : Nat} {a b : List V} (few : m ≤ n)
    (h : SamePath E s n a b) : SamePath E s m a b := fun i hi => h i (by omega)

theorem SamePath.symm (lawful : E.Lawful) {s : Schema} {n : Nat} {a b : List V}
    (h : SamePath E s n a b) : SamePath E s n b a := fun i hi => lawful.same_symm _ _ (h i hi)

theorem SamePath.trans (lawful : E.Lawful) {s : Schema} {n : Nat} {a b c : List V}
    (h : SamePath E s n a b) (h' : SamePath E s n b c) : SamePath E s n a c :=
  fun i hi => lawful.same_trans _ _ _ (h i hi) (h' i hi)

theorem mem_outputColumns_depth : depthColumn ∈ t.outputColumns := by simp [outputColumns]

/-- Different depths are different values. -/
theorem eq_of_depth (sorts : E.Sorts le) {m n : Nat} (hm : (m : Int) ≤ Int64.maxValue.toInt)
    (hn : (n : Int) ≤ Int64.maxValue.toInt)
    (h : E.constant (.int (Int64.ofNat m)) = E.constant (.int (Int64.ofNat n))) : m = n := by
  have forth : le (E.constant (.int (Int64.ofNat m))) (E.constant (.int (Int64.ofNat n))) :=
    h ▸ sorts.le_refl _
  have back : le (E.constant (.int (Int64.ofNat n))) (E.constant (.int (Int64.ofNat m))) :=
    h ▸ sorts.le_refl _
  rw [sorts.int_le, ofNat_le_ofNat hm hn] at forth
  rw [sorts.int_le, ofNat_le_ofNat hn hm] at back
  omega

theorem ShowsGroup.congr {names names' : List String} {row next : List V} {n : Nat}
    (same : ∀ name ∈ t.outputColumns, E.cell names' next name = E.cell names row name)
    (h : t.ShowsGroup E db names row n) : t.ShowsGroup E db names' next n := by
  obtain ⟨nodes, hnodes, node, hnode, values, along⟩ := h
  refine ⟨nodes, hnodes, node, hnode, fun b hb => ?_, fun l hl below => ?_⟩
  · rw [same _ (mem_outputColumns_base hb), values b hb]
  · rw [same _ (mem_outputColumns_path hl), along l hl below]

section
variable (comparing : E.Comparing) (sorts : E.Sorts le)
  (small : ((t.depth + 1 : Nat) : Int) ≤ Int64.maxValue.toInt)

include comparing sorts small in
/-- The rows of the tree, with the ranks that they have been given, are shown as they are to be. -/
theorem shown_of_listed (sound : t.Sound) {openPaths : OpenPaths} {expandRoot : Bool}
    {tree : Query} (ht : t.treeQuery openPaths expandRoot = .ok tree) {s : Schema}
    {row next : List V} (hrow : row ∈ tree.rows E db)
    (same : ∀ name ∈ t.outputColumns, E.cell s.ids next name = E.cell tree.schema.ids row name)
    (ranks : ∀ i < t.depth, t.RankOf E db tree.schema.ids row (i + 1)
      (E.cell s.ids next (rankColumn (i + 1)))) : ∃ n, t.Shown E db s next n := by
  have placed : t.Placed E db tree := placed_treeQuery sound ht
  obtain ⟨n, at_n⟩ := placed.rows row hrow
  obtain ⟨m, bound, depthCell, group⟩ := rows_treeQuery sound ht comparing row hrow
  have limit := at_n.bound
  have one : m = n := by
    refine eq_of_depth sorts (by omega) (by omega) ?_
    rw [← depthCell, at_n.depth]
  rw [one] at group
  have cell (name : String) : E.cell t.outputColumns row name = E.cell tree.schema.ids row name :=
    (E.cell_names placed.names row name).symm
  have shown (name : String) (mem : name ∈ t.outputColumns) :
      E.cell s.ids next name = E.cell t.outputColumns row name :=
    (same name mem).trans (cell name).symm
  have rankAt (i : Nat) (hi : i < t.depth) :=
    ranks i hi _ ((cell depthColumn).symm.trans at_n.depth)
  refine ⟨n, at_n.bound, ?_, fun i hi above => ?_, fun i hi below => ?_, fun pos deep => ?_⟩
  · rw [shown depthColumn mem_outputColumns_depth, at_n.depth]
  · refine (rankAt i hi).1 (Int64.not_le.1 ?_)
    rw [ofNat_le_ofNat (by omega) (by omega)]
    omega
  · obtain ⟨b, hb, path⟩ := at_n.path (by omega) (by omega)
    have rank := (rankAt i hi).2 ((ofNat_le_ofNat (by omega) (by omega)).2 below)
      ⟨b, hb, fun l hl lt => by rw [← cell, path l hl (by omega)]⟩
    exact rank.congr fun l hl _ => (same _ (mem_outputColumns_path hl)).symm
  · exact (group pos deep).congr shown

/-! ## Ranks and paths -/

variable {s : Schema} {a b c : List V} {m n p : Nat} (ha : t.Shown E db s a m)
  (hb : t.Shown E db s b n)
include ha hb

/-- Nodes on the same path have the same rank. -/
theorem Shown.rank_eq_of_samePath (lawful : E.Lawful) {i : Nat} (deep : i < t.depth) (hm : i < m)
    (hn : i < n) (same : SamePath E s (i + 1) a b) :
    E.cell s.ids a (rankColumn (i + 1)) = E.cell s.ids b (rankColumn (i + 1)) := by
  obtain ⟨nodes, hnodes, position, -, only, rankA⟩ := ha.rank i deep hm
  obtain ⟨other, ho, place, leads, -, rankB⟩ := hb.rank i deep hn
  obtain rfl := Except.ok.inj (hnodes.symm.trans ho)
  have here : place = position := by
    refine only place ?_
    obtain ⟨node, hnode, along⟩ := leads
    refine ⟨node, hnode, fun l hl below => ?_⟩
    exact lawful.same_trans _ _ _ (same l.1 below) (along l hl below)
  rw [rankA, rankB, here]

include sorts in
/-- Nodes of tied ranks are on the same path. -/
theorem Shown.samePath_of_tied (lawful : E.Lawful) {i : Nat} (deep : i < t.depth) (hm : i < m)
    (hn : i < n)
    (forth : le (E.cell s.ids a (rankColumn (i + 1))) (E.cell s.ids b (rankColumn (i + 1))))
    (back : le (E.cell s.ids b (rankColumn (i + 1))) (E.cell s.ids a (rankColumn (i + 1)))) :
    SamePath E s (i + 1) a b := by
  obtain ⟨nodes, hnodes, position, leadsA, -, rankA⟩ := ha.rank i deep hm
  obtain ⟨other, ho, place, leadsB, -, rankB⟩ := hb.rank i deep hn
  obtain rfl := Except.ok.inj (hnodes.symm.trans ho)
  rw [rankA, rankB, sorts.ordinal_le] at forth back
  obtain ⟨node, hnode, alongA⟩ := leadsA
  obtain ⟨node', hnode', alongB⟩ := leadsB
  have bound := (List.getElem?_eq_some_iff.1 hnode).1
  have here : position = place := by
    refine Engine.eq_of_rank_eq ?_ (Nat.le_antisymm forth back)
    rwa [List.length_map]
  rw [here, hnode'] at hnode
  intro j hj
  obtain ⟨l, hl, rfl⟩ := exists_level (t := t) (i := j) (by omega)
  have toA := alongA l hl hj
  rw [← Option.some.inj hnode] at toA
  exact lawful.same_trans _ _ _ toA (lawful.same_symm _ _ (alongB l hl hj))

omit hb in
/-- A row has a rank, not a null, at the depths that it lies at or below. -/
theorem Shown.exists_ordinal {i : Nat} (deep : i < t.depth) (hm : i < m) :
    ∃ k, E.cell s.ids a (rankColumn (i + 1)) = E.ordinal k := by
  obtain ⟨nodes, -, position, -, -, rank⟩ := ha.rank i deep hm
  exact ⟨_, rank⟩

/-! ## Rows in order -/

omit ha hb in
/-- The values that rows are displayed by: ranks, then the depth, then the keys of base rows. -/
theorem sortValues_displayKeys (E : Engine V) (t : PivotTree) (s : Schema) (row : List V) :
    s.sortValues E t.displayKeys row =
      (List.range t.depth).map (fun i => (E.cell s.ids row (rankColumn (i + 1)), true)) ++
        ((E.cell s.ids row depthColumn, true) ::
          s.sortValues E (t.spec.sortKey ++ [SortKey.asc labelColumn]) row) := by
  simp [displayKeys, depths, Schema.sortValues, SortKey.asc]

include sorts in
/-- The ranks of rows are tied as far as their paths are the same. -/
theorem Shown.ties (lawful : E.Lawful) {count : Nat} (hm : count ≤ m) (hn : count ≤ n)
    (deep : count ≤ t.depth) (same : SamePath E s count a b) : ∀ i < count,
      Tied le (E.cell s.ids a (rankColumn (i + 1)), true)
        (E.cell s.ids b (rankColumn (i + 1)), true) := by
  intro i hi
  have rank := ha.rank_eq_of_samePath hb lawful (by omega) (by omega) (by omega)
    (same.mono (show i + 1 ≤ count by omega))
  rw [rank]
  exact ⟨sorts.le_refl _, sorts.le_refl _⟩

include sorts small in
/-- A row is not displayed before a node that it lies below. -/
theorem Shown.not_before_node (lawful : E.Lawful) (above : m < n) (same : SamePath E s m a b) :
    ¬ KeysLe le (s.sortValues E t.displayKeys b) (s.sortValues E t.displayKeys a) := by
  intro order
  have bound := hb.bound
  rw [sortValues_displayKeys, sortValues_displayKeys] at order
  have ties := hb.ties sorts ha lawful (Nat.le_of_lt above) (Nat.le_refl m) (by omega)
    (same.symm lawful)
  obtain ⟨ranks, depths⟩ := KeysLe.at_first (show m ≤ t.depth by omega) ties order
  by_cases last : m = t.depth
  · have order := (depths last).head
    have order : le (E.cell s.ids b depthColumn) (E.cell s.ids a depthColumn) := order
    rw [ha.depth, hb.depth, sorts.int_le, ofNat_le_ofNat (by omega) (by omega)] at order
    omega
  · have order := ranks (by omega)
    obtain ⟨k, rank⟩ := hb.exists_ordinal (show m < t.depth by omega) above
    rw [rank, ha.above m (by omega) (Nat.le_refl m)] at order
    exact sorts.not_ordinal_le_null lawful k order

include sorts in
/-- What is displayed between a node and a row below it lies below the node. -/
theorem Shown.below_of_between (lawful : E.Lawful) (hc : t.Shown E db s c p) (above : m ≤ n)
    (deep : m ≤ t.depth) (same : SamePath E s m a b)
    (first : KeysLe le (s.sortValues E t.displayKeys a) (s.sortValues E t.displayKeys c))
    (second : KeysLe le (s.sortValues E t.displayKeys c) (s.sortValues E t.displayKeys b)) :
    m ≤ p ∧ SamePath E s m a c := by
  rw [sortValues_displayKeys, sortValues_displayKeys] at first second
  -- One depth after the other, the rank in the middle is tied with the ranks around it.
  suffices run : ∀ i ≤ m, i ≤ p ∧ SamePath E s i a c from run m (Nat.le_refl m)
  intro i
  induction i with
  | zero => exact fun _ => ⟨Nat.zero_le _, fun j hj => absurd hj (Nat.not_lt_zero j)⟩
  | succ i ih =>
    intro hi
    obtain ⟨below, path⟩ := ih (by omega)
    have rest : SamePath E s i c b := (path.symm lawful).trans lawful (same.mono (by omega))
    have tiesFirst := ha.ties sorts hc lawful (show i ≤ m by omega) below (by omega) path
    have tiesSecond := hc.ties sorts hb lawful below (show i ≤ n by omega) (by omega) rest
    have forth := (KeysLe.at_first (show i ≤ t.depth by omega) tiesFirst first).1 (by omega)
    have back := (KeysLe.at_first (show i ≤ t.depth by omega) tiesSecond second).1 (by omega)
    rw [← ha.rank_eq_of_samePath hb lawful (by omega) (by omega) (by omega)
      (same.mono (show i + 1 ≤ m by omega))] at back
    have deeper : i < p := by
      by_cases shallow : p ≤ i
      · obtain ⟨k, rank⟩ := ha.exists_ordinal (show i < t.depth by omega) (by omega)
        rw [rank, hc.above i (by omega) shallow] at forth
        exact absurd forth (sorts.not_ordinal_le_null lawful k)
      · omega
    exact ⟨deeper, ha.samePath_of_tied sorts hc lawful (by omega) (by omega) deeper forth back⟩

include sorts in
/-- Base rows below one node of the last level follow the sort key and then their labels. -/
theorem Shown.leaves_in_order (lawful : E.Lawful) (ma : m = t.depth + 1) (nb : n = t.depth + 1)
    (same : SamePath E s t.depth a b)
    (order : KeysLe le (s.sortValues E t.displayKeys a) (s.sortValues E t.displayKeys b)) :
    KeysLe le (s.sortValues E (t.spec.sortKey ++ [SortKey.asc labelColumn]) a)
      (s.sortValues E (t.spec.sortKey ++ [SortKey.asc labelColumn]) b) := by
  rw [sortValues_displayKeys, sortValues_displayKeys] at order
  have ties := ha.ties sorts hb lawful (by omega) (by omega) (Nat.le_refl _) same
  have rest := (KeysLe.at_first (Nat.le_refl t.depth) ties order).2 rfl
  have depths : Tied le (E.cell s.ids a depthColumn, true) (E.cell s.ids b depthColumn, true) := by
    rw [ha.depth, hb.depth, ma, nb]
    exact ⟨sorts.le_refl _, sorts.le_refl _⟩
  exact KeysLe.of_append (.cons depths .nil) rest

end

/-! ## Siblings -/

/-- The values that nodes of a depth are ranked by: the sort key, then the path. -/
theorem sortValues_nodeKeys {i : Nat} {pivot : Column} (level : t.pivots[i]? = some pivot)
    (s : Schema) (node : List V) : s.sortValues E (t.nodeKeys (i + 1)) node =
      s.sortValues E t.spec.sortKey node ++
        (((t.pivotIds.take i).map fun name => (E.cell s.ids node name, true)) ++
          [(E.cell s.ids node pivot.id, true)]) := by
  have id : t.pivotIds[i]? = some pivot.id := by rw [pivotIds, List.getElem?_map, level]; rfl
  have path : t.pivotIds.take (i + 1) = t.pivotIds.take i ++ [pivot.id] := by
    rw [List.take_add_one, id]
    rfl
  simp [nodeKeys, path, Schema.sortValues, SortKey.asc, Function.comp_def]

/-- A node shows what it is ranked by. -/
theorem Shown.exists_node (lawful : E.Lawful) (sound : t.Sound) {s : Schema} {a : List V} {i : Nat}
    (ha : t.Shown E db s a (i + 1)) {pivot : Column} (level : t.pivots[i]? = some pivot) :
    ∃ nodes, t.groupRows t.base (i + 1) = .ok nodes ∧ ∃ position node,
      (nodes.rows E db)[position]? = some node ∧
      E.cell s.ids a (rankColumn (i + 1)) = E.ordinal (t.nodeRank E db (i + 1) nodes position) ∧
      (∀ l ∈ t.levels, l.1 < i + 1 →
        E.cell s.ids a (pathColumn l.1) = E.cell nodes.schema.ids node l.2.id) ∧
      s.sortValues E (t.spec.sortKey ++ [SortKey.asc (pathColumn i)]) a =
        nodes.schema.sortValues E t.spec.sortKey node ++
          [(E.cell nodes.schema.ids node pivot.id, true)] := by
  have deep : i < t.depth := (List.getElem?_eq_some_iff.1 level).1
  obtain ⟨nodes, hnodes, position, -, only, rank⟩ := ha.rank i deep (Nat.lt_succ_self i)
  obtain ⟨other, ho, node, hnode, values, along⟩ := ha.group (Nat.succ_pos i) deep
  obtain rfl := Except.ok.inj (hnodes.symm.trans ho)
  obtain ⟨place, bound, rfl⟩ := List.getElem_of_mem hnode
  have here : place = position := by
    refine only place ⟨_, List.getElem?_eq_getElem bound, fun l hl below => ?_⟩
    rw [← along l hl below]
    exact lawful.same_refl _
  subst here
  refine ⟨nodes, hnodes, place, _, List.getElem?_eq_getElem bound, rank, along, ?_⟩
  have keys : s.sortValues E t.spec.sortKey a =
      nodes.schema.sortValues E t.spec.sortKey (nodes.rows E db)[place] := by
    refine List.map_congr_left fun k hk => ?_
    obtain ⟨b, hb, same⟩ := Schema.has_iff.1 (sound.sortKey k hk)
    rw [← E.cell_congr same, ← E.cell_congr same, values b hb]
  have last := along (i, pivot) (mem_levels.2 level) (Nat.lt_succ_self i)
  rw [← keys, ← last]
  simp [Schema.sortValues, SortKey.asc]

section
variable (lawful : E.Lawful) (sorts : E.Sorts le) (sound : t.Sound)
include lawful sorts sound

/-- Siblings are displayed in the order of the sort key, and of their pivot values where that does
not decide. -/
theorem Shown.siblings_in_order {s : Schema} {a b : List V} {i : Nat} (deep : i < t.depth)
    (ha : t.Shown E db s a (i + 1)) (hb : t.Shown E db s b (i + 1)) (same : SamePath E s i a b)
    (order : KeysLe le (s.sortValues E t.displayKeys a) (s.sortValues E t.displayKeys b)) :
    KeysLe le (s.sortValues E (t.spec.sortKey ++ [SortKey.asc (pathColumn i)]) a)
      (s.sortValues E (t.spec.sortKey ++ [SortKey.asc (pathColumn i)]) b) := by
  rw [sortValues_displayKeys, sortValues_displayKeys] at order
  have ties := ha.ties sorts hb lawful (Nat.le_succ i) (Nat.le_succ i) (Nat.le_of_lt deep) same
  have ranks := (KeysLe.at_first (Nat.le_of_lt deep) ties order).1 deep
  have level : t.pivots[i]? = some t.pivots[i] := List.getElem?_eq_getElem deep
  obtain ⟨nodes, hnodes, x, nodeA, atX, rankA, alongA, keysA⟩ := ha.exists_node lawful sound level
  obtain ⟨other, ho, y, nodeB, atY, rankB, alongB, keysB⟩ := hb.exists_node lawful sound level
  obtain rfl := Except.ok.inj (hnodes.symm.trans ho)
  rw [rankA, rankB, sorts.ordinal_le] at ranks
  rw [keysA, keysB]
  have boundX := (List.getElem?_eq_some_iff.1 atX).1
  have boundY := (List.getElem?_eq_some_iff.1 atY).1
  by_cases eq : x = y
  · rw [eq, atY] at atX
    rw [Option.some.inj atX]
    exact sorts.keysLe_refl _
  · have before : t.nodeRank E db (i + 1) nodes x < t.nodeRank E db (i + 1) nodes y := by
      refine Nat.lt_of_le_of_ne ranks fun tie => eq ?_
      exact Engine.eq_of_rank_eq (by rwa [List.length_map]) tie
    have shape : ∀ row ∈ (nodes.rows E db).map (nodes.schema.sortValues E (t.nodeKeys (i + 1))),
        row.map (·.2) = (t.nodeKeys (i + 1)).map (·.ascending) := by
      intro row hrow
      obtain ⟨_, -, rfl⟩ := List.mem_map.1 hrow
      exact Schema.directions_sortValues E nodes.schema _ _
    have nodeOrder := sorts.keysLe_of_rank_lt shape (by rwa [List.length_map])
      (by rwa [List.length_map]) before
    rw [getD_map_of_getElem? atX, getD_map_of_getElem? atY, sortValues_nodeKeys level,
      sortValues_nodeKeys level] at nodeOrder
    -- The pivots above the siblings are among the keys of the ranks, and tied.
    refine nodeOrder.drop_middle (by simp [Schema.sortValues]) ?_
    rw [List.forall₂_map_left_iff, List.forall₂_map_right_iff, List.forall₂_same]
    intro name hname
    obtain ⟨l, hl, above, rfl⟩ := mem_take_pivotIds.1 hname
    have tie := same l.1 above
    rw [alongA l hl (by omega), alongB l hl (by omega)] at tie
    exact sorts.tied lawful tie true true

end

/-! ## The order of all rows -/

def AtDepth (E : Engine V) (s : Schema) (row : List V) (n : Nat) : Prop :=
  E.cell s.ids row depthColumn = E.constant (.int (Int64.ofNat n))

/-- A row belongs to the subtree of a node: it is not above the node, and its path begins with the
path of the node. -/
def InSubtree (E : Engine V) (t : PivotTree) (s : Schema) (node row : List V) : Prop :=
  ∃ m n, m ≤ n ∧ n ≤ t.depth + 1 ∧ AtDepth E s node m ∧ AtDepth E s row n ∧ SamePath E s m node row

/-- A row lies below a node. -/
def LiesBelow (E : Engine V) (t : PivotTree) (s : Schema) (node row : List V) : Prop :=
  ∃ m n, m < n ∧ n ≤ t.depth + 1 ∧ AtDepth E s node m ∧ AtDepth E s row n ∧ SamePath E s m node row

/-- Rows stand in the order of display. Every row lies at a depth; a node comes before what lies
below it, and only rows of its own subtree stand in between. The root, if the layout shows it, is
the first row. Siblings follow the sort key and then their pivot values, base rows below one node
the sort key and then their labels. -/
structure Displayed (E : Engine V) (le : V → V → Prop) (t : PivotTree) (s : Schema)
    (rows : List (List V)) : Prop where
  depths : ∀ row ∈ rows, ∃ n ≤ t.depth + 1, AtDepth E s row n
  nodes_first : ∀ (i j : Nat) a b, rows[i]? = some a → rows[j]? = some b →
    LiesBelow E t s a b → i < j
  together : ∀ (i j k : Nat) a b c, rows[i]? = some a → rows[j]? = some b → rows[k]? = some c →
    i < j → j < k → LiesBelow E t s a c → InSubtree E t s a b
  root_first : t.spec.showRoot = true → ∃ root rest, rows = root :: rest ∧ AtDepth E s root 0 ∧
    E.cell s.ids root rootColumn = E.constant (.bool true) ∧ ∀ row ∈ rest, ¬ AtDepth E s row 0
  siblings : rows.Pairwise fun a b => ∀ i < t.depth, AtDepth E s a (i + 1) →
    AtDepth E s b (i + 1) → SamePath E s i a b →
      KeysLe le (s.sortValues E (t.spec.sortKey ++ [SortKey.asc (pathColumn i)]) a)
        (s.sortValues E (t.spec.sortKey ++ [SortKey.asc (pathColumn i)]) b)
  leaves : rows.Pairwise fun a b => AtDepth E s a (t.depth + 1) → AtDepth E s b (t.depth + 1) →
    SamePath E s t.depth a b →
      KeysLe le (s.sortValues E (t.spec.sortKey ++ [SortKey.asc labelColumn]) a)
        (s.sortValues E (t.spec.sortKey ++ [SortKey.asc labelColumn]) b)

theorem Shown.at_depth (sorts : E.Sorts le)
    (small : ((t.depth + 1 : Nat) : Int) ≤ Int64.maxValue.toInt) {s : Schema} {row : List V}
    {m n : Nat} (h : t.Shown E db s row m) (bound : n ≤ t.depth + 1) (at_n : AtDepth E s row n) :
    t.Shown E db s row n := by
  have limit := h.bound
  have eq : m = n := by
    refine eq_of_depth sorts (by omega) (by omega) ?_
    rw [← h.depth]
    exact at_n
  exact eq ▸ h

/-- Rows that are placed in the tree stand in the order of their keys. -/
structure Arranged (E : Engine V) (db : Tables V) (le : V → V → Prop) (t : PivotTree) (s : Schema)
    (rows : List (List V)) : Prop where
  shown : ∀ row ∈ rows, ∃ n, t.Shown E db s row n
  order : rows.Pairwise fun a b =>
    KeysLe le (s.sortValues E t.displayKeys a) (s.sortValues E t.displayKeys b)

namespace Arranged

variable {s : Schema} {rows : List (List V)} (arranged : t.Arranged E db le s rows)
  (sorts : E.Sorts le) (small : ((t.depth + 1 : Nat) : Int) ≤ Int64.maxValue.toInt)
include arranged

theorem ordered {i j : Nat} {a b : List V} (ha : rows[i]? = some a) (hb : rows[j]? = some b)
    (before : i < j) :
    KeysLe le (s.sortValues E t.displayKeys a) (s.sortValues E t.displayKeys b) := by
  obtain ⟨boundA, rfl⟩ := List.getElem?_eq_some_iff.1 ha
  obtain ⟨boundB, rfl⟩ := List.getElem?_eq_some_iff.1 hb
  exact List.pairwise_iff_getElem.1 arranged.order i j boundA boundB before

include sorts small

theorem at_depth {row : List V} (hrow : row ∈ rows) {n : Nat} (bound : n ≤ t.depth + 1)
    (at_n : AtDepth E s row n) : t.Shown E db s row n := by
  obtain ⟨m, at_m⟩ := arranged.shown row hrow
  exact at_m.at_depth sorts small bound at_n

variable (lawful : E.Lawful)
include lawful

/-- A node comes before what lies below it. -/
theorem node_first {i j : Nat} {a b : List V} (ha : rows[i]? = some a) (hb : rows[j]? = some b)
    (below : LiesBelow E t s a b) : i < j := by
  obtain ⟨m, n, above, bound, at_m, at_n, same⟩ := below
  have shownA := arranged.at_depth sorts small (List.mem_of_getElem? ha) (by omega) at_m
  have shownB := arranged.at_depth sorts small (List.mem_of_getElem? hb) bound at_n
  by_contra late
  obtain equal | after : i = j ∨ j < i := by omega
  · rw [equal, hb] at ha
    rw [← Option.some.inj ha] at at_m
    have depths := eq_of_depth sorts (by omega) (by omega) (shownB.depth.symm.trans at_m)
    omega
  · exact shownA.not_before_node sorts small shownB lawful above same (arranged.ordered hb ha after)

/-- Only rows of the subtree of a node stand between the node and a row below it. -/
theorem together {i j k : Nat} {a b c : List V} (ha : rows[i]? = some a) (hb : rows[j]? = some b)
    (hc : rows[k]? = some c) (first : i < j) (second : j < k) (below : LiesBelow E t s a c) :
    InSubtree E t s a b := by
  obtain ⟨m, n, above, bound, at_m, at_n, same⟩ := below
  have shownA := arranged.at_depth sorts small (List.mem_of_getElem? ha) (by omega) at_m
  have shownC := arranged.at_depth sorts small (List.mem_of_getElem? hc) bound at_n
  obtain ⟨p, shownB⟩ := arranged.shown b (List.mem_of_getElem? hb)
  obtain ⟨between, path⟩ := shownA.below_of_between sorts shownC lawful shownB
    (Nat.le_of_lt above) (by omega) same (arranged.ordered ha hb first)
    (arranged.ordered hb hc second)
  exact ⟨m, p, between, shownB.bound, at_m, shownB.depth, path⟩

/-- The root comes before all other rows. -/
theorem root_first {root : List V} {rest : List (List V)} (perm : rows.Perm (root :: rest))
    (top : AtDepth E s root 0) (others : ∀ row ∈ rest, ¬ AtDepth E s row 0) :
    ∃ others, rows = root :: others ∧ others.Perm rest := by
  have mem : root ∈ rows := perm.mem_iff.2 List.mem_cons_self
  obtain ⟨shown, order⟩ := arranged
  obtain _ | ⟨first, later⟩ := rows
  · cases mem
  have eq : first = root := by
    obtain here | below := List.mem_cons.1 (perm.mem_iff.1 List.mem_cons_self)
    · exact here
    obtain other | after := List.mem_cons.1 mem
    · exact absurd (other ▸ top) (others first below)
    obtain ⟨_, atRoot⟩ := shown root mem
    obtain ⟨n, atFirst⟩ := shown first List.mem_cons_self
    have pos : 0 < n := by
      refine Nat.pos_of_ne_zero fun zero => others first below ?_
      exact zero ▸ atFirst.depth
    have none : SamePath E s 0 root first := fun i hi => absurd hi (Nat.not_lt_zero i)
    have atTop := atRoot.at_depth sorts small (Nat.zero_le _) top
    exact absurd ((List.pairwise_cons.1 order).1 root after)
      (atTop.not_before_node sorts small atFirst lawful pos none)
  subst eq
  exact ⟨later, rfl, perm.cons_inv⟩

theorem siblings (sound : t.Sound) : rows.Pairwise fun a b => ∀ i < t.depth,
    AtDepth E s a (i + 1) → AtDepth E s b (i + 1) → SamePath E s i a b →
      KeysLe le (s.sortValues E (t.spec.sortKey ++ [SortKey.asc (pathColumn i)]) a)
        (s.sortValues E (t.spec.sortKey ++ [SortKey.asc (pathColumn i)]) b) := by
  refine arranged.order.imp_of_mem fun {a b} ha hb before i deep at_a at_b same => ?_
  have shownA := arranged.at_depth sorts small ha (by omega) at_a
  have shownB := arranged.at_depth sorts small hb (by omega) at_b
  exact shownA.siblings_in_order lawful sorts sound deep shownB same before

theorem leaves : rows.Pairwise fun a b => AtDepth E s a (t.depth + 1) →
    AtDepth E s b (t.depth + 1) → SamePath E s t.depth a b →
      KeysLe le (s.sortValues E (t.spec.sortKey ++ [SortKey.asc labelColumn]) a)
        (s.sortValues E (t.spec.sortKey ++ [SortKey.asc labelColumn]) b) := by
  refine arranged.order.imp_of_mem fun {a b} ha hb before at_a at_b same => ?_
  have shownA := arranged.at_depth sorts small ha (Nat.le_refl _) at_a
  have shownB := arranged.at_depth sorts small hb (Nat.le_refl _) at_b
  exact shownA.leaves_in_order sorts shownB lawful rfl rfl same before

end Arranged

/-- The rows of the sorted tree stand in the order of display. Depths are stored as integers of 64
bits; no list of pivots in memory is too long for these. -/
theorem sortedTreeQuery_displayed (comparing : E.Comparing) (sorts : E.Sorts le) (db : Tables V)
    {base : Query} {spec : PivotSpec} (made : make base spec = .ok t)
    (small : ((t.depth + 1 : Nat) : Int) ≤ Int64.maxValue.toInt) {openPaths : OpenPaths}
    {expandRoot : Bool} {sorted : Query}
    (hs : t.sortedTreeQuery openPaths expandRoot = .ok sorted) :
    t.Displayed E le sorted.schema (sorted.rows E db) := by
  have sound := sound_of_make made
  have lawful := comparing.toLawful
  obtain ⟨tree, _, q, ht, -, -, sort⟩ := sortedTreeQuery_eq_ok_iff.1 hs
  have placed : t.Placed E db tree := placed_treeQuery sound ht
  obtain ⟨listed, perm, each⟩ := exists_listed lawful sound placed ht hs
  have arranged : t.Arranged E db le sorted.schema (sorted.rows E db) := by
    constructor
    · intro next hn
      obtain ⟨row, -, hrow, same, ranks⟩ :=
        exists_of_mem_right (forall₂_mem each) (perm.mem_iff.1 hn)
      exact shown_of_listed comparing sorts small sound ht hrow same ranks
    · obtain ⟨schema, -⟩ := Query.sort_rows E db sort
      exact schema ▸ Query.sort_sorted sorts db sort
  refine ⟨fun row hrow => ?_, fun i j a b => arranged.node_first sorts small lawful,
    fun i j k a b c => arranged.together sorts small lawful, fun visible => ?_,
    arranged.siblings sorts small lawful sound, arranged.leaves sorts small lawful⟩
  · obtain ⟨n, at_n⟩ := arranged.shown row hrow
    exact ⟨n, at_n.bound, at_n.depth⟩
  · obtain ⟨root, rest, rows, rootDepth, rootCell, deeper⟩ :=
      exists_root sound ht comparing db made visible
    rw [rows] at each
    obtain ⟨first, later, ⟨same, -⟩, others, rfl⟩ := List.forall₂_cons_left_iff.1 each
    have cell (row : List V) (name : String) :
        E.cell tree.schema.ids row name = E.cell t.outputColumns row name :=
      E.cell_names placed.names row name
    have top : AtDepth E sorted.schema first 0 := by
      rw [AtDepth, same _ mem_outputColumns_depth, cell, rootDepth]
    have low : ∀ row ∈ later, ¬ AtDepth E sorted.schema row 0 := by
      intro row hrow zero
      obtain ⟨old, ho, same, -⟩ := exists_of_mem_right others hrow
      obtain ⟨n, pos, bound, depthCell⟩ := deeper old ho
      rw [AtDepth, same _ mem_outputColumns_depth, cell, depthCell] at zero
      have depths := eq_of_depth sorts (by omega) (by omega) zero
      omega
    obtain ⟨others, eq, perm⟩ := arranged.root_first sorts small lawful perm top low
    refine ⟨first, others, eq, top, ?_, fun row hrow => low row (perm.mem_iff.1 hrow)⟩
    rw [same rootColumn (by simp [outputColumns]), cell, rootCell]

/-- The regions with the largest sales come first, each right before its amounts and sales. -/
theorem sortedTreeQuery_displayed_largestSales : unbounded.Comparing ∧
    unbounded.Sorts (fun a b => Datum.le a b = true) ∧
    ∃ t, make regionSales largestSales = .ok t ∧
      ((t.depth + 1 : Nat) : Int) ≤ Int64.maxValue.toInt ∧
      ∃ sorted, t.sortedTreeQuery openNull false = .ok sorted ∧
        t.Displayed unbounded (fun a b => Datum.le a b = true) sorted.schema
          (sorted.rows unbounded unboundedSales) ∧
        (sorted.rows unbounded unboundedSales).map (pick · [1, 3, 6, 7, 8, 9]) = [
          [.int 11, .int 0, .null, .null, .null, .null],
          [.int 6, .int 1, .null, .null, .int 1, .null],
          [.int 3, .int 2, .null, .int 3, .int 1, .int 1],
          [.int 3, .int 3, .null, .int 3, .int 1, .int 1],
          [.int 3, .int 3, .null, .int 3, .int 1, .int 1],
          [.int 3, .int 1, .text "north", .null, .int 2, .null],
          [.int 2, .int 1, .text "south", .null, .int 3, .null]] := by
  obtain ⟨t, made, two⟩ : ∃ t, make regionSales largestSales = .ok t ∧ t.depth = 2 := ⟨_, rfl, rfl⟩
  have shown : (make regionSales largestSales).toOption.bind (fun t =>
      (t.sortedTreeQuery openNull false).toOption.map fun q =>
        (q.rows unbounded unboundedSales).map (pick · [1, 3, 6, 7, 8, 9])) = some [
          [.int 11, .int 0, .null, .null, .null, .null],
          [.int 6, .int 1, .null, .null, .int 1, .null],
          [.int 3, .int 2, .null, .int 3, .int 1, .int 1],
          [.int 3, .int 3, .null, .int 3, .int 1, .int 1],
          [.int 3, .int 3, .null, .int 3, .int 1, .int 1],
          [.int 3, .int 1, .text "north", .null, .int 2, .null],
          [.int 2, .int 1, .text "south", .null, .int 3, .null]] := by
    decide +kernel
  rw [made] at shown
  obtain ⟨sorted, hs, rows⟩ := Option.map_eq_some_iff.1 shown
  have sortedOk : t.sortedTreeQuery openNull false = .ok sorted := by
    cases h : t.sortedTreeQuery openNull false with
    | error e => rw [h] at hs; cases hs
    | ok q => rw [h] at hs; cases hs; rfl
  have small : ((t.depth + 1 : Nat) : Int) ≤ Int64.maxValue.toInt := by rw [two]; decide
  exact ⟨unbounded_comparing, unbounded_sorts, t, made, small, sorted, sortedOk,
    sortedTreeQuery_displayed unbounded_comparing unbounded_sorts unboundedSales made small
      sortedOk, rows⟩

end PivotTree

end Crosstab
