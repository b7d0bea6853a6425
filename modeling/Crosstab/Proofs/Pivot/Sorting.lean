import Crosstab.Proofs.Meaning.Integers
import Crosstab.Proofs.Pivot.Nodes

/-!
# Sorted rows

Sorting neither loses nor doubles rows of the tree: every row meets one rank at each depth that it
lies at or below, and none above.
-/

namespace Crosstab

variable {V : Type} {E : Engine V} {db : Tables V}

namespace PivotTree

variable {t : PivotTree}

/-- The node at a position lies at the end of a path. -/
def Leads (E : Engine V) (db : Tables V) (t : PivotTree) (depth : Nat) (nodes : Query)
    (path : Nat → V) (position : Nat) : Prop :=
  ∃ node, (nodes.rows E db)[position]? = some node ∧ ∀ l ∈ t.levels, l.1 < depth →
    E.same (path l.1) (E.cell nodes.schema.ids node l.2.id) = true

/-- A value is the rank of the only node of a depth at the end of a path. -/
def RankAt (E : Engine V) (db : Tables V) (t : PivotTree) (depth : Nat) (path : Nat → V)
    (value : V) : Prop :=
  ∃ nodes, t.groupRows t.base depth = .ok nodes ∧ ∃ position,
    t.Leads E db depth nodes path position ∧
      (∀ other, t.Leads E db depth nodes path other → other = position) ∧
      value = E.ordinal (t.nodeRank E db depth nodes position)

theorem Leads.congr {depth : Nat} {nodes : Query} {path path' : Nat → V} {position : Nat}
    (same : ∀ l ∈ t.levels, l.1 < depth → path l.1 = path' l.1)
    (h : t.Leads E db depth nodes path position) : t.Leads E db depth nodes path' position := by
  obtain ⟨node, hn, leads⟩ := h
  exact ⟨node, hn, fun l hl below => same l hl below ▸ leads l hl below⟩

theorem RankAt.congr {depth : Nat} {path path' : Nat → V} {value : V}
    (same : ∀ l ∈ t.levels, l.1 < depth → path l.1 = path' l.1)
    (h : t.RankAt E db depth path value) : t.RankAt E db depth path' value := by
  obtain ⟨nodes, hn, position, leads, only, rank⟩ := h
  refine ⟨nodes, hn, position, leads.congr same, fun other leads' => ?_, rank⟩
  exact only other (leads'.congr fun l hl below => (same l hl below).symm)

/-- A path leads to at most one node of a depth. -/
theorem Leads.unique (lawful : E.Lawful) {depth : Nat} {nodes : Query}
    (h : t.groupRows t.base depth = .ok nodes) (pos : 0 < depth) (deep : depth ≤ t.depth)
    {path : Nat → V} {i j : Nat} (hi : t.Leads E db depth nodes path i)
    (hj : t.Leads E db depth nodes path j) : i = j := by
  obtain ⟨a, ha, toA⟩ := hi
  obtain ⟨b, hb, toB⟩ := hj
  obtain ⟨boundA, rfl⟩ := List.getElem?_eq_some_iff.1 ha
  obtain ⟨boundB, rfl⟩ := List.getElem?_eq_some_iff.1 hb
  have distinct := List.pairwise_iff_getElem.1 (nodes_distinct h pos deep E db)
  obtain below | rfl | above := Nat.lt_trichotomy i j
  · refine absurd (fun l hl deep => ?_) (distinct i j boundA boundB below)
    exact lawful.same_trans _ _ _ (lawful.same_symm _ _ (toA l hl deep)) (toB l hl deep)
  · rfl
  · refine absurd (fun l hl deep => ?_) (distinct j i boundB boundA above)
    exact lawful.same_trans _ _ _ (lawful.same_symm _ _ (toB l hl deep)) (toA l hl deep)

/-! ## Ranks with flags -/

/-- A row shows the node at a position, with its path, its rank and a true flag. -/
structure ShowsNode (E : Engine V) (db : Tables V) (t : PivotTree) (depth : Nat) (nodes : Query)
    (s : Schema) (position : Nat) (row : List V) : Prop where
  node : ∃ node, (nodes.rows E db)[position]? = some node ∧ ∀ l ∈ t.levels, l.1 < depth →
    E.cell s.ids row (pathColumn l.1) = E.cell nodes.schema.ids node l.2.id
  rank : E.cell s.ids row (rankColumn depth) = E.ordinal (t.nodeRank E db depth nodes position)
  flag : E.cell s.ids row (levelColumn depth) = E.constant (.bool true)

/-- The rows that the rows of the tree are joined with at a depth: one for each node. -/
theorem forall₂_flagged (E : Engine V) (db : Tables V) (sound : t.Sound) {ranks marked : Query}
    {depth : Nat} (h : t.rankQuery depth = .ok ranks)
    (flag : ranks.extend (levelColumn depth) .boolean (.lit (.bool true)) = .ok marked) :
    0 < depth ∧ depth ≤ t.depth ∧ ∃ g, t.groupRows t.base depth = .ok g ∧
      marked.schema.has (rankColumn depth) = true ∧
      List.Forall₂ (t.ShowsNode E db depth g marked.schema) (List.range (g.rows E db).length)
        (marked.rows E db) := by
  obtain ⟨pos, deep, g, grouped, hasPath, hasRank, each⟩ :=
    forall₂_rankQuery E db sound h
  refine ⟨pos, deep, g, grouped,
    Schema.has_of_subset (fun c hc => Query.mem_extend flag hc) _ hasRank,
    forall₂_comp each (Query.forall₂_extend flag) ?_⟩
  rintro position row next ⟨node, hn, paths, rank⟩ ⟨keeps, value⟩
  refine ⟨⟨node, hn, fun l hl below => ?_⟩, ?_, ?_⟩
  · rw [keeps _ (hasPath l hl below), paths l hl below]
  · rw [keeps _ hasRank, rank]
  · obtain ⟨_, value⟩ := value rfl
    exact value

section
variable (lawful : E.Lawful) {g : Query} {depth : Nat} (grouped : t.groupRows t.base depth = .ok g)
  (pos : 0 < depth) (deep : depth ≤ t.depth) {s r : Schema} {row : List V}

include deep in
/-- A row agrees with the row of a node exactly if it lies at or below the node's depth and its path
leads to the node. -/
theorem agree_iff {right : List V} {position : Nat}
    (shows : t.ShowsNode E db depth g r position right) :
    s.agree E r (joinNames depth) true row right = true ↔
      t.Leads E db depth g (fun i => E.cell s.ids row (pathColumn i)) position ∧
        E.same (E.cell s.ids row (levelColumn depth)) (E.constant (.bool true)) = true := by
  obtain ⟨node, hn, paths⟩ := shows.node
  rw [Schema.agree, joinNames, List.all_append, Bool.and_eq_true, List.all_map, List.all_eq_true]
  refine and_congr ?_ ?_
  · constructor
    · intro all
      refine ⟨node, hn, fun l hl below => ?_⟩
      rw [← paths l hl below]
      exact all l.1 (List.mem_range.2 below)
    · rintro ⟨other, ho, leads⟩ i hi
      have below := List.mem_range.1 hi
      rw [hn] at ho
      obtain ⟨l, hl, rfl⟩ := exists_level (Nat.lt_of_lt_of_le below deep)
      have same := leads l hl below
      rw [← Option.some.inj ho, ← paths l hl below] at same
      exact same
  · simp only [List.all_cons, List.all_nil, Bool.and_true, if_true, shows.flag]
    rfl

variable {rights : List (List V)}
  (nodes : List.Forall₂ (t.ShowsNode E db depth g r) (List.range (g.rows E db).length) rights)

include lawful grouped pos deep nodes

/-- A row agrees with the row of one node at most. -/
theorem agree_unique : rights.Pairwise fun a b =>
    ¬ (s.agree E r (joinNames depth) true row a = true ∧
      s.agree E r (joinNames depth) true row b = true) := by
  rw [List.pairwise_iff_getElem]
  rintro i j hi hj below ⟨agreeI, agreeJ⟩
  have shows (k : Nat) (hk : k < rights.length) : t.ShowsNode E db depth g r k rights[k] := by
    have hrange : k < (List.range (g.rows E db).length).length := nodes.length_eq ▸ hk
    simpa using nodes.get hrange hk
  have same := Leads.unique lawful grouped pos deep ((agree_iff deep (shows i hi)).1 agreeI).1
    ((agree_iff deep (shows j hj)).1 agreeJ).1
  omega

/-- What a row agrees with shows the rank of its node. -/
theorem rankAt_of_agree {right : List V} (mem : right ∈ rights)
    (agree : s.agree E r (joinNames depth) true row right = true) :
    t.RankAt E db depth (fun i => E.cell s.ids row (pathColumn i))
      (E.cell r.ids right (rankColumn depth)) := by
  obtain ⟨position, -, shows⟩ := exists_of_mem_right nodes mem
  have leads := ((agree_iff deep shows).1 agree).1
  exact ⟨g, grouped, position, leads,
    fun other leads' => Leads.unique lawful grouped pos deep leads' leads, shows.rank⟩

/-- A row that lies at or below a depth, with the path of a base row, agrees with the row of a
node. -/
theorem exists_agree {b : List V} (hb : b ∈ t.base.rows E db)
    (path : ∀ l ∈ t.levels, l.1 < depth →
      E.cell s.ids row (pathColumn l.1) = E.cell t.base.schema.ids b l.2.id)
    (flag : E.cell s.ids row (levelColumn depth) = E.constant (.bool true)) :
    ∃ right ∈ rights, s.agree E r (joinNames depth) true row right = true := by
  obtain ⟨node, hn, same⟩ := exists_node lawful grouped pos deep hb
  obtain ⟨position, bound, rfl⟩ := List.getElem_of_mem hn
  obtain ⟨right, hr, shows⟩ := exists_of_mem_left nodes (List.mem_range.2 bound)
  refine ⟨right, hr, (agree_iff deep shows).2 ⟨⟨_, List.getElem?_eq_getElem bound, ?_⟩, ?_⟩⟩
  · intro l hl below
    dsimp only
    rw [path l hl below]
    exact same l hl below
  · rw [flag]
    exact lawful.same_refl _

end

/-! ## One depth -/

theorem type_of_combine_ge {s : Schema} {operands : List Expr} {type : DataType}
    (h : (Expr.combine .ge operands).type s = .ok type) : type = .boolean := by
  obtain ⟨types, -, h⟩ := Expr.type_combine_eq_ok_iff.1 h
  match types, h with
  | [], h => cases h
  | [_], h => cases h
  | [left, right], h =>
    have h : Expr.comparisonType left right = .ok type := h
    unfold Expr.comparisonType at h
    split at h <;> cases h
    rfl
  | _ :: _ :: _ :: _, h => simp [Expr.combinedType, Operation.takes] at h

/-- A value is the rank of a row at a depth: nothing above it, and at or below it the rank of the
node that the row belongs to. -/
def RankOf (E : Engine V) (db : Tables V) (t : PivotTree) (names : List String) (row : List V)
    (depth : Nat) (value : V) : Prop :=
  ∀ n, E.cell names row depthColumn = E.constant (.int n) →
    (n < Int64.ofNat depth → value = E.null) ∧
    (Int64.ofNat depth ≤ n →
      (∃ b ∈ t.base.rows E db, ∀ l ∈ t.levels, l.1 < depth →
        E.cell names row (pathColumn l.1) = E.cell t.base.schema.ids b l.2.id) →
      t.RankAt E db depth (fun i => E.cell names row (pathColumn i)) value)

/-- A schema has the columns that ranks are found by. -/
structure Ranking (t : PivotTree) (s : Schema) : Prop where
  depth : s.has depthColumn = true
  path : ∀ l ∈ t.levels, s.has (pathColumn l.1) = true

theorem RankOf.keeps {s r : Schema} {row next : List V} {depth : Nat} {value : V}
    (ranking : t.Ranking s) (keeps : s.Keeps E r row next)
    (h : t.RankOf E db r.ids next depth value) : t.RankOf E db s.ids row depth value := by
  intro n cell
  obtain ⟨above, below⟩ := h n (by rw [keeps _ ranking.depth, cell])
  refine ⟨above, fun le => ?_⟩
  rintro ⟨b, hb, cells⟩
  have rank := below le
    ⟨b, hb, fun l hl deep => by rw [keeps _ (ranking.path l hl), cells l hl deep]⟩
  exact rank.congr fun l hl _ => keeps _ (ranking.path l hl)

/-- The rank is none of the columns that ranks are joined by. -/
theorem exists_rank_without {s : Schema} {depth : Nat} (has : s.has (rankColumn depth) = true) :
    ∃ c ∈ s.without (joinNames depth), SameName c.id (rankColumn depth) := by
  obtain ⟨c, hc, same⟩ := Schema.has_iff.1 has
  refine ⟨c, Schema.mem_without.2 ⟨hc, fun name hn key => ?_⟩, same⟩
  exact not_sameName_joinNames hn (key.trans same)

/-- At a depth, a row meets the rank of its node if it lies at or below that depth, and nothing
otherwise. -/
theorem forall₂_addRank (lawful : E.Lawful) (sound : t.Sound) (db : Tables V) {q r : Query}
    {depth : Nat} (ranking : t.Ranking q.schema) (h : t.addRank q depth = .ok r) :
    (∀ name, q.schema.has name = true → r.schema.has name = true) ∧
    r.schema.has (rankColumn depth) = true ∧
    List.Forall₂ (fun row next => q.schema.Keeps E r.schema row next ∧
        t.RankOf E db q.schema.ids row depth (E.cell r.schema.ids next (rankColumn depth)))
      (q.rows E db) (r.rows E db) := by
  obtain ⟨flagged, ranks, marked, hf, hr, hm, join⟩ := addRank_eq_ok_iff.1 h
  obtain ⟨pos, deep, g, grouped, hasRank, nodes⟩ := forall₂_flagged E db sound hr hm
  have typed : (Expr.combine .ge [.column depthColumn, .lit (.int (Int64.ofNat depth))]).type
      q.schema = .ok .boolean := by
    obtain ⟨actual, typed⟩ := Query.exists_type_of_extend hf
    rw [typed, type_of_combine_ge typed]
  have sub := Schema.has_of_subset fun c hc => Query.mem_extend hf (c := c) hc
  obtain ⟨c, hc, rankName⟩ := exists_rank_without hasRank
  refine ⟨fun name has => Query.has_join join (sub name has),
    Schema.has_iff.2 ⟨c, Query.mem_join join hc, rankName⟩, forall₂_comp (Query.forall₂_extend hf)
    (Query.forall₂_join join fun _ _ => agree_unique lawful grouped pos deep nodes) ?_⟩
  rintro row mid next ⟨keeps, value⟩ ⟨keeps', cases⟩
  refine ⟨keeps.trans sub keeps', fun n depthCell => ?_⟩
  obtain ⟨_, value⟩ := value typed
  have flag : E.cell flagged.schema.ids mid (levelColumn depth) =
      E.constant (.bool (decide (Int64.ofNat depth ≤ n))) := by
    rw [value, ← lawful.ge_int, ← depthCell]
    rfl
  rw [← E.cell_congr rankName]
  constructor
  · intro above
    -- Above the depth the path may well agree, as nulls do; it is the flag that does not.
    obtain ⟨right, hright, agree, -⟩ | ⟨-, nulls⟩ := cases
    · obtain ⟨position, -, shows⟩ := exists_of_mem_right nodes hright
      have same := ((agree_iff deep shows).1 agree).2
      rw [flag, decide_eq_false (by rwa [Int64.not_le]), lawful.same_false_true] at same
      cases same
    · exact nulls c hc
  · rintro below ⟨b, hb, path⟩
    rw [decide_eq_true below] at flag
    obtain ⟨right, hright, agree, cells⟩ | ⟨none, -⟩ := cases
    · rw [cells c hc, E.cell_congr rankName]
      exact (rankAt_of_agree lawful grouped pos deep nodes hright agree).congr
        fun l hl _ => keeps _ (ranking.path l hl)
    · have midPath (l : Nat × Column) (hl : l ∈ t.levels) (below : l.1 < depth) :
          E.cell flagged.schema.ids mid (pathColumn l.1) = E.cell t.base.schema.ids b l.2.id := by
        rw [keeps _ (ranking.path l hl), path l hl below]
      obtain ⟨right, hright, agree⟩ := exists_agree lawful grouped pos deep nodes hb midPath flag
      exact absurd agree (Bool.eq_false_iff.1 (none right hright))

/-! ## All depths -/

theorem Ranking.mono {s r : Schema} (ranking : t.Ranking s)
    (sub : ∀ name, s.has name = true → r.has name = true) : t.Ranking r :=
  ⟨sub _ ranking.depth, fun l hl => sub _ (ranking.path l hl)⟩

/-- After the joins of the first depths, every row of the tree stands where it stood, with its rank
at each of these depths. -/
theorem forall₂_addRanks (lawful : E.Lawful) (sound : t.Sound) (db : Tables V) {q r : Query}
    (ranking : t.Ranking q.schema) {count : Nat}
    (h : ((List.range count).map (· + 1)).foldlM t.addRank q = .ok r) :
    (∀ name, q.schema.has name = true → r.schema.has name = true) ∧
    (∀ i < count, r.schema.has (rankColumn (i + 1)) = true) ∧
    List.Forall₂ (fun row next => q.schema.Keeps E r.schema row next ∧ ∀ i < count,
        t.RankOf E db q.schema.ids row (i + 1) (E.cell r.schema.ids next (rankColumn (i + 1))))
      (q.rows E db) (r.rows E db) := by
  induction count generalizing r with
  | zero =>
    rw [List.range_zero, List.map_nil, List.foldlM_nil, pure_eq_ok_iff] at h
    subst h
    exact ⟨fun _ has => has, by simp, List.forall₂_same.2 fun row _ =>
      ⟨Schema.Keeps.refl E _ row, by simp⟩⟩
  | succ count ih =>
    rw [List.range_succ, List.map_append, List.foldlM_append] at h
    obtain ⟨before, run, h⟩ := bind_eq_ok_iff.1 h
    obtain ⟨next, step, h⟩ := bind_eq_ok_iff.1 h
    obtain rfl := pure_eq_ok_iff.1 h
    obtain ⟨sub, ranks, each⟩ := ih run
    obtain ⟨sub', rank, last⟩ :=
      forall₂_addRank lawful sound db (ranking.mono sub) step
    refine ⟨fun name has => sub' name (sub name has), ?_, forall₂_comp each last ?_⟩
    · intro i hi
      by_cases old : i < count
      · exact sub' _ (ranks i old)
      · rwa [show i = count by omega]
    · rintro a b c ⟨keeps, ranksOf⟩ ⟨keeps', rankOf⟩
      refine ⟨keeps.trans sub keeps', fun i hi => ?_⟩
      by_cases old : i < count
      -- Later joins keep the ranks that are there.
      · rw [keeps' _ (ranks i old)]
        exact ranksOf i old
      · rw [show i = count by omega]
        exact rankOf.keeps ranking keeps

theorem ofNat_le_ofNat {m n : Nat} (hm : (m : Int) ≤ Int64.maxValue.toInt)
    (hn : (n : Int) ≤ Int64.maxValue.toInt) : Int64.ofNat m ≤ Int64.ofNat n ↔ m ≤ n := by
  have limit : Int64.maxValue.toInt = 9223372036854775807 := rfl
  rw [Int64.le_iff_toInt_le, Int64.toInt_ofNat_of_lt (by omega), Int64.toInt_ofNat_of_lt (by omega)]
  exact Int.ofNat_le

/-- Rows shown by their names are the rows. -/
theorem map_cell_names {s : Schema} {names : List String}
    (same : List.Forall₂ SameName s.ids names) {row : List V}
    (wide : row.length = s.columns.length) : names.map (E.cell s.ids row) = row := by
  conv_rhs => rw [← Schema.map_cell E wide]
  rw [Schema.ids, List.forall₂_map_left_iff] at same
  exact (map_eq_map_of_forall₂ same fun c name hc => E.cell_congr hc).symm

theorem Placed.has {q : Query} (placed : t.Placed E db q) {name : String}
    (mem : name ∈ t.outputColumns) : q.schema.has name = true := by
  obtain ⟨id, hid, same⟩ := exists_of_mem_right placed.names mem
  obtain ⟨c, hc, rfl⟩ := List.mem_map.1 hid
  exact Schema.has_iff.2 ⟨c, hc, same⟩

theorem Placed.ranking {q : Query} (placed : t.Placed E db q) : t.Ranking q.schema :=
  ⟨placed.has (by simp [outputColumns]), fun _ hl => placed.has (mem_outputColumns_path hl)⟩

/-- Before they are sorted, the rows stand as they stand in the tree, and show what they show there
and their ranks. -/
theorem exists_listed (lawful : E.Lawful) (sound : t.Sound) {openPaths : OpenPaths}
    {expandRoot : Bool} {tree sorted : Query} (placed : t.Placed E db tree)
    (ht : t.treeQuery openPaths expandRoot = .ok tree)
    (hs : t.sortedTreeQuery openPaths expandRoot = .ok sorted) :
    ∃ listed, (sorted.rows E db).Perm listed ∧
      List.Forall₂ (fun row next => (∀ name ∈ t.outputColumns,
          E.cell sorted.schema.ids next name = E.cell tree.schema.ids row name) ∧
        ∀ i < t.depth, t.RankOf E db tree.schema.ids row (i + 1)
          (E.cell sorted.schema.ids next (rankColumn (i + 1)))) (tree.rows E db) listed := by
  obtain ⟨other, ranked, q, ho, run, project, sort⟩ := sortedTreeQuery_eq_ok_iff.1 hs
  obtain rfl : other = tree := Except.ok.inj (ho.symm.trans ht)
  obtain ⟨schema, perm⟩ := Query.sort_rows E db sort
  obtain ⟨-, -, each⟩ := forall₂_addRanks lawful sound db placed.ranking run
  refine ⟨q.rows E db, perm, ?_⟩
  rw [schema, Query.rows_project project, List.forall₂_map_right_iff]
  refine each.imp fun row next => ?_
  rintro ⟨keeps, ranks⟩
  constructor
  · intro name mem
    have has := Query.has_project project (List.mem_append_left _ mem)
    rw [← Query.keeps_project project next _ has, keeps _ (placed.has mem)]
  · intro i hi
    have mem : rankColumn (i + 1) ∈ t.depths.map rankColumn :=
      List.mem_map_of_mem (List.mem_map.2 ⟨i, List.mem_range.2 hi, rfl⟩)
    have has := Query.has_project project (List.mem_append_right _ mem)
    rw [← Query.keeps_project project next _ has]
    exact ranks i hi

/-- A row of the sorted tree lies at a depth, and has a rank at exactly the depths from one to that:
the rank of the one node that its path leads to. -/
def WellRanked (E : Engine V) (db : Tables V) (t : PivotTree) (s : Schema) (row : List V) : Prop :=
  ∃ n ≤ t.depth + 1, E.cell s.ids row depthColumn = E.constant (.int (Int64.ofNat n)) ∧
    ∀ d, 1 ≤ d → d ≤ t.depth →
      (n < d → E.cell s.ids row (rankColumn d) = E.null) ∧
      (d ≤ n → E.same (E.cell s.ids row (rankColumn d)) E.null = false ∧
        t.RankAt E db d (fun i => E.cell s.ids row (pathColumn i))
          (E.cell s.ids row (rankColumn d)))

/-- The rows of the sorted tree are those of the tree in another order, and each has its ranks.
Depths are stored as integers of 64 bits; no list of pivots in memory is too long for these. -/
theorem sortedTreeQuery_rows (E : Engine V) (lawful : E.Lawful) (db : Tables V) {base : Query}
    {spec : PivotSpec} (made : make base spec = .ok t) {openPaths : OpenPaths} {expandRoot : Bool}
    {tree sorted : Query} (ht : t.treeQuery openPaths expandRoot = .ok tree)
    (hs : t.sortedTreeQuery openPaths expandRoot = .ok sorted) :
    ((sorted.rows E db).map fun row => t.outputColumns.map (E.cell sorted.schema.ids row)).Perm
      (tree.rows E db) ∧
    (((t.depth + 1 : Nat) : Int) ≤ Int64.maxValue.toInt →
      ∀ row ∈ sorted.rows E db, t.WellRanked E db sorted.schema row) := by
  have sound := sound_of_make made
  have placed : t.Placed E db tree := placed_treeQuery sound ht
  obtain ⟨listed, perm, each⟩ := exists_listed lawful sound placed ht hs
  constructor
  · refine (perm.map _).trans (.of_eq ?_)
    have shown : (tree.rows E db).map id =
        listed.map fun row => t.outputColumns.map (E.cell sorted.schema.ids row) := by
      refine map_eq_map_of_forall₂ (forall₂_mem each) ?_
      rintro row next ⟨mem, same, -⟩
      rw [List.map_congr_left same]
      exact (map_cell_names placed.names (tree.plan.rows_wide E db row mem)).symm
    rw [← shown, List.map_id]
  · intro small next hn
    obtain ⟨row, hrow, same, ranks⟩ := exists_of_mem_right each (perm.mem_iff.1 hn)
    obtain ⟨n, at_n⟩ := placed.rows row hrow
    have cell (name : String) : E.cell t.outputColumns row name = E.cell tree.schema.ids row name :=
      (E.cell_names placed.names row name).symm
    have depthCell := (cell depthColumn).symm.trans at_n.depth
    refine ⟨n, at_n.bound, ?_, fun d pos deep => ?_⟩
    · rw [same depthColumn (by simp [outputColumns]), depthCell]
    · obtain ⟨above, below⟩ := ranks (d - 1) (by omega) _ depthCell
      rw [Nat.sub_add_cancel pos] at above below
      have bound := at_n.bound
      constructor
      · intro lt
        refine above (Int64.not_le.1 ?_)
        rw [ofNat_le_ofNat (by omega) (by omega)]
        omega
      · intro le
        obtain ⟨b, hb, path⟩ := at_n.path (by omega) (by omega)
        have rank := below ((ofNat_le_ofNat (by omega) (by omega)).2 le)
          ⟨b, hb, fun l hl lt => by rw [← cell, path l hl (by omega)]⟩
        refine ⟨?_, rank.congr fun l hl _ => (same _ (mem_outputColumns_path hl)).symm⟩
        obtain ⟨g, -, position, -, -, eq⟩ := rank
        rw [eq, lawful.same_ordinal_null]

def largestSales : PivotSpec where
  pivotColumns := ["region", "AMOUNT"]
  leafColumn := some "amount"
  showRoot := true
  showLeafRows := true
  sortKey := [⟨"amount", false⟩]
  aggregations := .empty

def regionSales : Query where
  schema := ⟨[.named "Region" .text, .named "amount" .integer], by decide, by decide⟩
  plan := .table "sales" _ (by decide)

/-- The region without a name is open, and one of the amounts below it. -/
def openNull : OpenPaths := OpenPaths.empty.openPath [none, some "3"]

theorem sortedTreeQuery_rows_largestSales : integers.Lawful ∧
    ∃ t, make regionSales largestSales = .ok t ∧
    ((t.depth + 1 : Nat) : Int) ≤ Int64.maxValue.toInt ∧
    ∃ tree, t.treeQuery openNull false = .ok tree ∧
    ∃ sorted, t.sortedTreeQuery openNull false = .ok sorted ∧
      ((sorted.rows integers salesTables).map fun row =>
        t.outputColumns.map (integers.cell sorted.schema.ids row)).Perm
          (tree.rows integers salesTables) ∧
      (∀ row ∈ sorted.rows integers salesTables,
        t.WellRanked integers salesTables sorted.schema row) ∧
      (sorted.rows integers salesTables).map (pick · [0, 3, 6, 7, 8, 9]) = [
        [.null, .int 0, .null, .null, .null, .null],
        [.null, .int 1, .null, .null, .int 1, .null],
        [.null, .int 2, .null, .int 3, .int 1, .int 1],
        [.null, .int 3, .null, .int 3, .int 1, .int 1],
        [.null, .int 3, .null, .int 3, .int 1, .int 1],
        [.text "north", .int 1, .text "north", .null, .int 2, .null],
        [.text "south", .int 1, .text "south", .null, .int 3, .null]] := by
  obtain ⟨t, made, two⟩ : ∃ t, make regionSales largestSales = .ok t ∧ t.depth = 2 := ⟨_, rfl, rfl⟩
  have shown : (make regionSales largestSales).toOption.bind (fun t =>
      (t.sortedTreeQuery openNull false).toOption.map fun q =>
        (q.rows integers salesTables).map (pick · [0, 3, 6, 7, 8, 9])) = some [
        [.null, .int 0, .null, .null, .null, .null],
        [.null, .int 1, .null, .null, .int 1, .null],
        [.null, .int 2, .null, .int 3, .int 1, .int 1],
        [.null, .int 3, .null, .int 3, .int 1, .int 1],
        [.null, .int 3, .null, .int 3, .int 1, .int 1],
        [.text "north", .int 1, .text "north", .null, .int 2, .null],
        [.text "south", .int 1, .text "south", .null, .int 3, .null]] := by
    decide +kernel
  rw [made] at shown
  obtain ⟨sorted, hs, rows⟩ := Option.map_eq_some_iff.1 shown
  have sortedOk : t.sortedTreeQuery openNull false = .ok sorted := by
    cases h : t.sortedTreeQuery openNull false with
    | error e => rw [h] at hs; cases hs
    | ok q => rw [h] at hs; cases hs; rfl
  obtain ⟨tree, -, -, ht, -⟩ := sortedTreeQuery_eq_ok_iff.1 sortedOk
  have small : ((t.depth + 1 : Nat) : Int) ≤ Int64.maxValue.toInt := by rw [two]; decide
  obtain ⟨perm, ranked⟩ :=
    sortedTreeQuery_rows integers integers_lawful salesTables made ht sortedOk
  exact ⟨integers_lawful, t, made, small, tree, ht, sorted, sortedOk, perm, ranked small, rows⟩

end PivotTree

end Crosstab
