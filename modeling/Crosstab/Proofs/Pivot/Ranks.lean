import Crosstab.Proofs.Pivot.Assembly

namespace Crosstab

namespace PivotTree

variable {t : PivotTree}

def pathColumns (t : PivotTree) (depth : Nat) : List Column :=
  (t.levels.take depth).map fun l => .named (pathColumn l.1) l.2.type

theorem map_fst_take_levels {depth : Nat} (h : depth ≤ t.depth) :
    (t.levels.take depth).map (·.1) = List.range depth := by
  rw [List.map_take, map_fst_levels, List.take_range, Nat.min_eq_left h]

theorem ids_pathColumns {depth : Nat} (h : depth ≤ t.depth) :
    (t.pathColumns depth).map (·.id) = (List.range depth).map pathColumn := by
  rw [pathColumns, ← map_fst_take_levels h, List.map_map, List.map_map]
  rfl

theorem nodup_pathIds_append (depth : Nat) {name : String}
    (other : ∀ n, ¬ SameName (pathColumn n) name) :
    ((List.range depth).map pathColumn ++ [name]).Nodup := by
  refine List.nodup_append.2 ⟨nodup_pathIds depth, List.nodup_singleton _, ?_⟩
  rintro a ha b hb rfl
  obtain ⟨n, -, rfl⟩ := List.mem_map.1 ha
  exact other n (List.mem_singleton.1 hb ▸ SameName.refl _)

theorem nodup_joinNames (depth : Nat) : (joinNames depth).Nodup :=
  nodup_pathIds_append depth fun _ => not_sameName_path_level

theorem id_of_mem_pathColumns {c : Column} {depth : Nat} (h : c ∈ t.pathColumns depth) :
    ∃ n, c.id = pathColumn n := by
  obtain ⟨l, -, rfl⟩ := List.mem_map.1 h
  exact ⟨l.1, rfl⟩

section
variable (sound : t.Sound) (free : ∀ c ∈ t.base.schema.columns, Apart c.id)
include sound free

omit free in
/-- The nodes of a depth have all columns that they are ranked by. -/
theorem type_rank {s : Schema} {depth : Nat} (pos : 0 < depth) (deep : depth ≤ t.depth)
    (ready : t.Ready s depth) :
    (Expr.rowNumber (t.nodeKeys depth)).type s = .ok .integer := by
  have has := Schema.has_mono fun b hb => (ready.shown b hb).imp fun c hc => ⟨hc.1, hc.2.1⟩
  refine Expr.type_rowNumber ?_
    (List.forall_mem_append.2 ⟨fun k hk => has _ (sound.sortKey k hk), ?_⟩)
  · intro none
    exact take_pivotIds_ne_nil pos deep (List.map_eq_nil_iff.1 (List.append_eq_nil_iff.1 none).2)
  · intro k hk
    obtain ⟨id, hid, rfl⟩ := List.mem_map.1 hk
    obtain ⟨p, hp, rfl⟩ := List.mem_map.1 (List.mem_of_mem_take hid)
    exact has _ (Schema.has_of_mem (sound.pivots_mem p hp))

/-- The nodes of a depth can be ranked. -/
theorem exists_rankQuery {depth : Nat} (pos : 0 < depth) (deep : depth ≤ t.depth) :
    ∃ q, t.rankQuery depth = .ok q ∧
      q.schema.columns = t.pathColumns depth ++ [.named (rankColumn depth) .integer] := by
  obtain ⟨groups, hg, ready⟩ := exists_groupRows sound rfl depth
  have names := ready.names free
  have rankNew := Schema.has_eq_false_iff.2 fun c hc => (names c hc).rank depth
  obtain ⟨ranked, hr, columns⟩ := Query.exists_extend (rankColumn depth) .integer
    (.rowNumber (t.nodeKeys depth)) rankNew (rankColumn_ne_empty depth)
    (type_rank sound pos deep ready) rfl
  have pathNew (n : Nat) : ranked.schema.has (pathColumn n) = false := by
    refine Schema.has_append columns (Schema.has_eq_false_iff.2 fun c hc => (names c hc).path n) ?_
    intro c hc
    rw [List.mem_singleton.1 hc]
    exact fun same => not_sameName_path_rank same.symm
  obtain ⟨q, hq, all⟩ := exists_pathColumns depth (t.levels.take depth) (fun l _ => pathNew l.1)
    (by rw [map_fst_take_levels deep]; exact List.nodup_range)
    (fun l hl below => ⟨l.2, columns ▸ List.mem_append_left _
      (ready.raw l (List.mem_of_mem_take hl) below), rfl, rfl⟩)
  have ids : (t.pathColumns depth ++ [Column.named (rankColumn depth) .integer]).map (·.id) =
      (List.range depth).map pathColumn ++ [rankColumn depth] := by
    rw [List.map_append, ids_pathColumns deep]
    rfl
  obtain ⟨r, hproject, final⟩ := Query.exists_project (q := q)
    (t.pathColumns depth ++ [.named (rankColumn depth) .integer]) (by simp) (by
      rw [all, columns]
      intro c hc
      obtain hc | hc := List.mem_append.1 hc
      · exact List.mem_append_right _ hc
      · exact List.mem_append_left _ (List.mem_append_right _ hc))
    (List.Nodup.of_map _ (ids ▸ nodup_pathIds_append depth fun _ => not_sameName_path_rank))
  rw [ids] at hproject
  exact ⟨r, rankQuery_eq_ok_iff.2 ⟨pos, deep, groups, ranked, q, hg, hr, hq, hproject⟩, final⟩

end

/-! ## Ranks at every row -/

theorem pathColumns_subset_bookkeeping {c : Column} {depth : Nat} (h : c ∈ t.pathColumns depth) :
    c ∈ t.bookkeeping := by
  obtain ⟨l, hl, rfl⟩ := List.mem_map.1 h
  exact List.mem_append_right _ (List.mem_map.2 ⟨l, List.mem_of_mem_take hl, rfl⟩)

theorem Fits.mem_of_mem_bookkeeping {s : Schema} (fits : t.Fits s) {c : Column}
    (h : c ∈ t.bookkeeping) : c ∈ s.columns := by
  obtain ⟨shown, columns, -⟩ := fits.columns
  exact columns ▸ List.mem_append_right _ h

/-- The names of ranks and flags are none of the columns of a part. -/
theorem Fits.apart {s : Schema} (fits : t.Fits s)
    (free : ∀ c ∈ t.base.schema.columns, Apart c.id) {c : Column} (h : c ∈ s.columns) (n : Nat) :
    ¬ SameName c.id (rankColumn n) ∧ ¬ SameName c.id (levelColumn n) := by
  have mem : c.id ∈ t.outputColumns := fits.ids ▸ List.mem_map_of_mem h
  rw [outputColumns, List.mem_append, List.mem_append] at mem
  obtain (mem | mem) | mem := mem
  · obtain ⟨b, hb, id⟩ := List.mem_map.1 mem
    rw [← id]
    exact ⟨(free b hb).rank n, (free b hb).level n⟩
  · exact (not_sameName_numbered (List.mem_cons_of_mem _ mem) n).2
  · obtain ⟨i, -, id⟩ := List.mem_map.1 mem
    rw [← id]
    exact ⟨not_sameName_path_rank, not_sameName_path_level⟩

/-- A schema has the columns of a part, the ranks down to a depth, and the flags for these. -/
structure Ranked (part s : Schema) (depth : Nat) : Prop where
  keep : ∀ c ∈ part.columns, c ∈ s.columns
  ranks : ∀ d < depth, Column.named (rankColumn (d + 1)) .integer ∈ s.columns
  only : ∀ c ∈ s.columns, c ∈ part.columns ∨
    ∃ d < depth, c.id = rankColumn (d + 1) ∨ c.id = levelColumn (d + 1)

theorem ranked_zero (s : Schema) : Ranked s s 0 :=
  ⟨fun _ h => h, fun _ h => absurd h (Nat.not_lt_zero _), fun _ h => .inl h⟩

/-- With the next rank and its flag, a schema has the ranks down to the next depth. -/
theorem Ranked.succ {part s r : Schema} {depth : Nat} (ranked : Ranked part s depth)
    (mem : ∀ c, c ∈ r.columns ↔ (c ∈ s.columns ∨ c = .named (levelColumn (depth + 1)) .boolean) ∨
      c = .named (rankColumn (depth + 1)) .integer) : Ranked part r (depth + 1) where
  keep c hc := (mem c).2 (.inl (.inl (ranked.keep c hc)))
  ranks d hd := by
    by_cases last : d = depth
    · exact (mem _).2 (.inr (by rw [last]))
    · exact (mem _).2 (.inl (.inl (ranked.ranks d (by omega))))
  only c hc := by
    obtain (old | rfl) | rfl := (mem c).1 hc
    · refine (ranked.only c old).imp_right ?_
      rintro ⟨d, below, id⟩
      exact ⟨d, by omega, id⟩
    · exact .inr ⟨depth, Nat.lt_succ_self _, .inr rfl⟩
    · exact .inr ⟨depth, Nat.lt_succ_self _, .inl rfl⟩

section
variable {part s : Schema} {depth : Nat} (fits : t.Fits part) (ranked : Ranked part s depth)
  (free : ∀ c ∈ t.base.schema.columns, Apart c.id)
include fits ranked free

/-- The next rank and its flag are new. -/
theorem Ranked.next_new : s.has (rankColumn (depth + 1)) = false ∧
    s.has (levelColumn (depth + 1)) = false := by
  rw [Schema.has_eq_false_iff, Schema.has_eq_false_iff, ← forall₂_and]
  intro c hc
  obtain old | ⟨d, below, id | id⟩ := ranked.only c hc
  · exact fits.apart free old (depth + 1)
  · rw [id, sameName_rankColumn]
    exact ⟨by omega, not_sameName_rank_level⟩
  · rw [id, sameName_levelColumn]
    exact ⟨fun same => not_sameName_rank_level same.symm, by omega⟩

end

def rankColumns (depth : Nat) : List Column :=
  (List.range depth).map fun d => .named (rankColumn (d + 1)) .integer

theorem Fits.mem_depth {s : Schema} (fits : t.Fits s) :
    Column.named depthColumn .integer ∈ s.columns :=
  fits.mem_of_mem_bookkeeping (by simp [bookkeeping])

theorem Fits.mem_label {s : Schema} (fits : t.Fits s) :
    Column.named labelColumn .text ∈ s.columns :=
  fits.mem_of_mem_bookkeeping (by simp [bookkeeping])

theorem Fits.has_of_base {s : Schema} (fits : t.Fits s) {name : String}
    (h : t.base.schema.has name = true) : s.has name = true := by
  obtain ⟨shown, columns, each⟩ := fits.columns
  refine Schema.has_mono (fun b hb => ?_) name h
  obtain ⟨c, hc, id, -⟩ := exists_of_mem_left each hb
  exact ⟨c, columns ▸ List.mem_append_left _ hc, id⟩

theorem nodup_append_rankColumns (free : ∀ c ∈ t.base.schema.columns, Apart c.id) {part : Schema}
    (fits : t.Fits part) : (part.columns ++ rankColumns t.depth).Nodup := by
  refine List.nodup_append.2 ⟨part.ids_distinct.of_map, ?_, ?_⟩
  · refine List.nodup_range.map fun m n same => ?_
    have ids : rankColumn (m + 1) = rankColumn (n + 1) := congrArg Column.id same
    have numbers := sameName_rankColumn.1 (congrArg foldCase ids)
    omega
  · rintro c hc _ hr rfl
    obtain ⟨d, -, rfl⟩ := List.mem_map.1 hr
    exact (fits.apart free hc (d + 1)).1 (SameName.refl _)

theorem has_of_mem_displayKeys (sound : t.Sound) {part s : Schema} (fits : t.Fits part)
    (columns : s.columns = part.columns ++ rankColumns t.depth) :
    ∀ k ∈ t.displayKeys, s.has k.column = true := by
  have has := Schema.has_of_subset (s := part) (t := s) fun c hc =>
    columns ▸ List.mem_append_left _ hc
  intro k hk
  simp only [displayKeys, List.mem_append, List.mem_singleton] at hk
  obtain ((rank | rfl) | key) | rfl := hk
  · obtain ⟨_, depth, rfl⟩ := List.mem_map.1 rank
    obtain ⟨d, hd, rfl⟩ := List.mem_map.1 depth
    refine Schema.has_of_mem (c := .named (rankColumn (d + 1)) .integer) ?_
    exact columns ▸ List.mem_append_right _ (List.mem_map.2 ⟨d, hd, rfl⟩)
  · exact has _ (Schema.has_of_mem fits.mem_depth)
  · exact has _ (fits.has_of_base (sound.sortKey k key))
  · exact has _ (Schema.has_of_mem fits.mem_label)

/-- The columns by which the ranks of a depth are joined. -/
def rankKeys (t : PivotTree) (depth : Nat) : List Column :=
  t.pathColumns depth ++ [.named (levelColumn depth) .boolean]

theorem ids_rankKeys {depth : Nat} (h : depth ≤ t.depth) :
    (t.rankKeys depth).map (·.id) = joinNames depth := by
  rw [rankKeys, List.map_append, ids_pathColumns h]
  rfl

/-- Besides its keys, the ranks of a depth have one column. -/
theorem mem_without_rankKeys {s : Schema} {depth : Nat} {c : Column} (deep : depth ≤ t.depth)
    (columns : s.columns = t.pathColumns depth ++ [.named (rankColumn depth) .integer] ++
      [.named (levelColumn depth) .boolean]) :
    c ∈ s.without ((t.rankKeys depth).map (·.id)) ↔
      c = .named (rankColumn depth) .integer := by
  rw [Schema.mem_without, columns]
  constructor
  · rintro ⟨mem, other⟩
    have noKey : c ∉ t.rankKeys depth := fun key =>
      other c.id (List.mem_map_of_mem key) (SameName.refl _)
    rw [List.mem_append, List.mem_append] at mem
    obtain (mem | mem) | mem := mem
    · exact absurd (List.mem_append_left _ mem) noKey
    · exact List.mem_singleton.1 mem
    · exact absurd (List.mem_append_right _ mem) noKey
  · rintro rfl
    exact ⟨by simp, fun name hn => not_sameName_joinNames (ids_rankKeys deep ▸ hn)⟩

section
variable (sound : t.Sound) (free : ∀ c ∈ t.base.schema.columns, Apart c.id)
include sound free

/-- The ranks of a depth can be flagged. -/
theorem exists_flagged {depth : Nat} (pos : 0 < depth) (deep : depth ≤ t.depth) :
    ∃ ranks marked, t.rankQuery depth = .ok ranks ∧
      ranks.extend (levelColumn depth) .boolean (.lit (.bool true)) = .ok marked ∧
      marked.schema.columns = t.pathColumns depth ++ [.named (rankColumn depth) .integer] ++
        [.named (levelColumn depth) .boolean] := by
  obtain ⟨ranks, hr, columns⟩ := exists_rankQuery sound free pos deep
  have new : ranks.schema.has (levelColumn depth) = false := by
    rw [Schema.has_eq_false_iff, columns]
    refine List.forall_mem_append.2 ⟨fun c hc => ?_, fun c hc => ?_⟩
    · obtain ⟨n, id⟩ := id_of_mem_pathColumns hc
      rw [id]
      exact not_sameName_path_level
    · rw [List.mem_singleton.1 hc]
      exact not_sameName_rank_level
  obtain ⟨marked, hm, all⟩ := Query.exists_extend (q := ranks) (levelColumn depth) .boolean
    (.lit (.bool true)) new (levelColumn_ne_empty _) rfl rfl
  exact ⟨ranks, marked, hr, hm, by rw [all, columns]⟩

/-- The ranks of the next depth can be joined. -/
theorem exists_addRank {part : Schema} {q : Query} {depth : Nat} (fits : t.Fits part)
    (ranked : Ranked part q.schema depth) (deep : depth < t.depth) :
    ∃ r, t.addRank q (depth + 1) = .ok r ∧ Ranked part r.schema (depth + 1) := by
  obtain ⟨rankNew, levelNew⟩ := ranked.next_new fits free
  have depthType : (Expr.column depthColumn).type q.schema = .ok .integer :=
    Expr.type_column (Schema.find?_self (ranked.keep _ fits.mem_depth))
  obtain ⟨flagged, hflag, columns⟩ := Query.exists_extend (levelColumn (depth + 1)) .boolean
    (.combine .ge [.column depthColumn, .lit (.int (Int64.ofNat (depth + 1)))]) levelNew
    (levelColumn_ne_empty _)
    (Expr.type_combine_eq_ok_iff.2 ⟨[.integer, .integer], .cons depthType (.cons rfl .nil), rfl⟩)
    rfl
  obtain ⟨ranks, marked, hranks, hmarked, markedColumns⟩ :=
    exists_flagged sound free (Nat.succ_pos depth) deep
  have ids : (t.rankKeys (depth + 1)).map (·.id) = joinNames (depth + 1) := ids_rankKeys deep
  have rankNew' : flagged.schema.has (rankColumn (depth + 1)) = false := by
    refine Schema.has_append columns rankNew fun c hc => ?_
    rw [List.mem_singleton.1 hc]
    exact fun same => not_sameName_rank_level same.symm
  obtain ⟨r, hr, mem⟩ := Query.exists_join (q := flagged) marked (t.rankKeys (depth + 1)) .left true
    (by simp [rankKeys])
    (List.Nodup.of_map _ (ids ▸ nodup_joinNames _))
    (by
      rw [columns]
      refine fun c hc => List.mem_append.2 ((List.mem_append.1 hc).imp_left fun path => ?_)
      exact ranked.keep c (fits.mem_of_mem_bookkeeping (pathColumns_subset_bookkeeping path)))
    (by
      rw [markedColumns]
      exact fun c hc => (List.mem_append.1 hc).elim
        (fun path => List.mem_append_left _ (List.mem_append_left _ path))
        (fun level => List.mem_append_right _ level))
    (by
      intro d hd
      rw [(mem_without_rankKeys deep markedColumns).1 hd]
      exact Schema.has_eq_false_iff.1 rankNew')
  rw [ids] at hr
  refine ⟨r, addRank_eq_ok_iff.2 ⟨flagged, ranks, marked, hflag, hranks, hmarked, hr⟩,
    ranked.succ fun c => ?_⟩
  rw [mem, mem_without_rankKeys deep markedColumns, columns, List.mem_append, List.mem_singleton]

/-- All ranks can be joined, one depth after the other. -/
theorem exists_addRanks {q : Query} (fits : t.Fits q.schema) {depth : Nat}
    (deep : depth ≤ t.depth) : ∃ r, ((List.range depth).map (· + 1)).foldlM t.addRank q = .ok r ∧
      Ranked q.schema r.schema depth := by
  induction depth with
  | zero => exact ⟨q, rfl, ranked_zero _⟩
  | succ depth ih =>
    obtain ⟨r, hr, ranked⟩ := ih (by omega)
    obtain ⟨next, hn, all⟩ := exists_addRank sound free fits ranked deep
    refine ⟨next, ?_, all⟩
    rw [List.range_succ, List.map_append, List.foldlM_append]
    exact bind_eq_ok_iff.2 ⟨r, hr, by simpa using hn⟩

/-- The tree can be sorted; it has the columns of a part and all ranks then. -/
theorem exists_sortedTreeQuery (openPaths : OpenPaths) (expandRoot : Bool) :
    ∃ q part, t.sortedTreeQuery openPaths expandRoot = .ok q ∧ t.Fits part ∧
      q.schema.columns = part.columns ++ rankColumns t.depth := by
  obtain ⟨tree, htree, fits⟩ := exists_treeQuery sound free openPaths expandRoot
  obtain ⟨ranked, hranked, all⟩ := exists_addRanks sound free fits (Nat.le_refl t.depth)
  have ids : (tree.schema.columns ++ rankColumns t.depth).map (·.id) =
      t.outputColumns ++ t.depths.map rankColumn := by
    rw [List.map_append, show tree.schema.columns.map (·.id) = _ from fits.ids, rankColumns,
      depths, List.map_map, List.map_map]
    rfl
  obtain ⟨q, hq, columns⟩ := Query.exists_project (q := ranked)
    (tree.schema.columns ++ rankColumns t.depth)
    (fun none => List.ne_nil_of_mem fits.mem_depth (List.append_eq_nil_iff.1 none).1)
    (List.forall_mem_append.2 ⟨all.keep, fun c hc => by
      obtain ⟨d, hd, rfl⟩ := List.mem_map.1 hc
      exact all.ranks d (List.mem_range.1 hd)⟩)
    (nodup_append_rankColumns free fits)
  obtain ⟨r, hr, same⟩ := Query.exists_sort (q := q) t.displayKeys (by simp [displayKeys])
    (has_of_mem_displayKeys sound fits columns)
  rw [ids] at hq
  refine ⟨r, tree.schema, ?_, fits, same ▸ columns⟩
  exact sortedTreeQuery_eq_ok_iff.2 ⟨tree, ranked, q, htree, hranked, hq, hr⟩

end

end PivotTree

end Crosstab
