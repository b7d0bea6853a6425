import Crosstab.Proofs.Meaning.Steps
import Crosstab.Proofs.Pivot.Assembly

/-!
# Nodes and their rows

What the rows of the queries of a tree are: the nodes of a depth are told apart by their paths, the
rank query numbers them, and every row that the tree shows has a depth and, down to that depth, the
path of a base row.
-/

namespace Crosstab

variable {V : Type} {E : Engine V} {db : Tables V}

theorem Engine.sameRow_map (E : Engine V) {α : Type} (l : List α) (f g : α → V) :
    E.sameRow (l.map f) (l.map g) = l.all fun x => E.same (f x) (g x) := by
  induction l with
  | nil => rfl
  | cons a l ih => rw [List.map_cons, List.map_cons, Engine.sameRow, ih, List.all_cons]

theorem Engine.cell_names (E : Engine V) {names names' : List String}
    (h : List.Forall₂ SameName names names') (row : List V) (name : String) :
    E.cell names row name = E.cell names' row name := by
  have same : names.findIdx? (fun n => decide (SameName n name)) =
      names'.findIdx? fun n => decide (SameName n name) := by
    induction h with
    | nil => rfl
    | cons first _ ih =>
      rw [List.findIdx?_cons, List.findIdx?_cons, ih,
        decide_eq_decide.2 ⟨fun k => first.symm.trans k, fun k => first.trans k⟩]
  unfold Engine.cell
  rw [same]

namespace PivotTree

variable {t : PivotTree}

/-! ## Path columns -/

/-- Path columns show the pivot columns down to a level, and nulls below it. -/
theorem forall₂_pathColumns (E : Engine V) (db : Tables V) {known : Nat}
    {levels : List (Nat × Column)} {q r : Query}
    (h : levels.foldlM (addPathColumn known) q = .ok r)
    (mem : ∀ l ∈ levels, l.1 < known → l.2 ∈ q.schema.columns) :
    (∀ c ∈ q.schema.columns, c ∈ r.schema.columns) ∧
    (∀ l ∈ levels, r.schema.has (pathColumn l.1) = true) ∧
    List.Forall₂ (fun row next => q.schema.Keeps E r.schema row next ∧
        ∀ l ∈ levels, E.cell r.schema.ids next (pathColumn l.1) =
          if l.1 < known then E.cell q.schema.ids row l.2.id else E.null)
      (q.rows E db) (r.rows E db) := by
  induction levels generalizing q with
  | nil =>
    rw [List.foldlM_nil, pure_eq_ok_iff] at h
    subst h
    exact ⟨fun _ hc => hc, by simp, List.forall₂_same.2 fun row _ =>
      ⟨Schema.Keeps.refl E _ row, by simp⟩⟩
  | cons level levels ih =>
    obtain ⟨number, pivot⟩ := level
    rw [List.foldlM_cons, bind_eq_ok_iff] at h
    obtain ⟨one, step, run⟩ := h
    obtain ⟨memHere, memBelow⟩ := List.forall_mem_cons.1 mem
    have typed : (if number < known then Expr.column pivot.id else .null pivot.type).type q.schema =
        .ok pivot.type := by
      by_cases deep : number < known
      · rw [if_pos deep, Expr.type_column (Schema.find?_self (memHere deep))]
      · rw [if_neg deep, Expr.type_null]
    have sub (c : Column) (hc : c ∈ q.schema.columns) := Query.mem_extend step hc
    obtain ⟨keep, has, rest⟩ := ih run fun l hl deep => sub _ (memBelow l hl deep)
    refine ⟨fun c hc => keep c (sub c hc), ?_, ?_⟩
    · refine List.forall_mem_cons.2 ⟨?_, has⟩
      exact Schema.has_of_subset keep _ (Query.has_extend step)
    · refine forall₂_comp (Query.forall₂_extend step) rest ?_
      rintro row next last ⟨keeps, value⟩ ⟨keeps', values⟩
      refine ⟨keeps.trans (Schema.has_of_subset sub) keeps', List.forall_mem_cons.2 ⟨?_, ?_⟩⟩
      · obtain ⟨_, value⟩ := value typed
        rw [keeps' _ (Query.has_extend step), value]
        by_cases deep : number < known
        · rw [if_pos deep, if_pos deep, Expr.value]
        · rw [if_neg deep, if_neg deep]
          rfl
      · intro l hl
        rw [values l hl]
        by_cases deep : l.1 < known
        · rw [if_pos deep, if_pos deep, keeps _ (Schema.has_of_mem (memBelow l hl deep))]
        · rw [if_neg deep, if_neg deep]

theorem mem_outputColumns_path {l : Nat × Column} (h : l ∈ t.levels) :
    pathColumn l.1 ∈ t.outputColumns :=
  List.mem_append_right _ (List.mem_map_of_mem (List.mem_range.2 (lt_of_mem_levels h)))

/-- Rows show the depth that they are marked with, and whether they are the root. -/
theorem forall₂_marks {q q₁ q₂ q₃ : Query} {depth : Nat} {label : Expr} {isRoot : Bool}
    (h₁ : q.extend depthColumn .integer (.lit (.int (Int64.ofNat depth))) = .ok q₁)
    (h₂ : q₁.extend labelColumn .text label = .ok q₂)
    (h₃ : q₂.extend rootColumn .boolean (.lit (.bool isRoot)) = .ok q₃) :
    List.Forall₂ (fun row next => q.schema.Keeps E q₃.schema row next ∧
        E.cell q₃.schema.ids next depthColumn = E.constant (.int (Int64.ofNat depth)) ∧
        E.cell q₃.schema.ids next rootColumn = E.constant (.bool isRoot))
      (q.rows E db) (q₃.rows E db) := by
  have keeps : List.Forall₂ (fun row next => q₁.schema.Keeps E q₃.schema row next ∧
      E.cell q₃.schema.ids next rootColumn = E.constant (.bool isRoot))
      (q₁.rows E db) (q₃.rows E db) := by
    refine forall₂_comp (Query.forall₂_extend h₂) (Query.forall₂_extend h₃) ?_
    intro row mid next first second
    have sub := Schema.has_of_subset fun c hc => Query.mem_extend h₂ (c := c) hc
    refine ⟨first.1.trans sub second.1, ?_⟩
    obtain ⟨_, value⟩ := second.2 rfl
    rw [value]
    rfl
  refine forall₂_comp (Query.forall₂_extend h₁) keeps ?_
  rintro row next last ⟨keeps, value⟩ ⟨keeps', root⟩
  have sub := Schema.has_of_subset fun c hc => Query.mem_extend h₁ (c := c) hc
  refine ⟨keeps.trans sub keeps', ?_, root⟩
  obtain ⟨_, value⟩ := value rfl
  rw [keeps' _ (Query.has_extend h₁), value]
  rfl

/-- A finished row shows the values of the row that it is made from, its depth, whether it is the
root, and its path down to a level. -/
structure Finished (E : Engine V) (t : PivotTree) (s : Schema) (depth known : Nat) (isRoot : Bool)
    (row next : List V) : Prop where
  keeps : ∀ name ∈ t.outputColumns, s.has name = true →
    E.cell t.outputColumns next name = E.cell s.ids row name
  depth : E.cell t.outputColumns next depthColumn = E.constant (.int (Int64.ofNat depth))
  root : E.cell t.outputColumns next rootColumn = E.constant (.bool isRoot)
  path : ∀ l ∈ t.levels, E.cell t.outputColumns next (pathColumn l.1) =
    if l.1 < known then E.cell s.ids row l.2.id else E.null

theorem names_finish {q r : Query} {depth known : Nat} {label : Expr} {isRoot : Bool}
    (h : t.finish q depth label isRoot known = .ok r) :
    List.Forall₂ SameName r.schema.ids t.outputColumns := by
  obtain ⟨q₁, q₂, q₃, q₄, -, -, -, -, project⟩ := finish_eq_ok_iff.1 h
  rw [Schema.ids, List.forall₂_map_left_iff]
  exact (Query.found_project project).flip.imp fun c name found =>
    (Schema.find?_eq_some_iff.1 found).2

theorem forall₂_finish (E : Engine V) (db : Tables V) {q r : Query} {depth known : Nat}
    {label : Expr} {isRoot : Bool}
    (h : t.finish q depth label isRoot known = .ok r)
    (mem : ∀ l ∈ t.levels, l.1 < known → l.2 ∈ q.schema.columns) :
    List.Forall₂ SameName r.schema.ids t.outputColumns ∧
    List.Forall₂ (Finished E t q.schema depth known isRoot) (q.rows E db) (r.rows E db) := by
  obtain ⟨q₁, q₂, q₃, q₄, h₁, h₂, h₃, h₄, project⟩ := finish_eq_ok_iff.1 h
  have sub (c : Column) (hc : c ∈ q.schema.columns) : c ∈ q₃.schema.columns :=
    Query.mem_extend h₃ (Query.mem_extend h₂ (Query.mem_extend h₁ hc))
  have sub₁ (c : Column) (hc : c ∈ q₁.schema.columns) : c ∈ q₃.schema.columns :=
    Query.mem_extend h₃ (Query.mem_extend h₂ hc)
  obtain ⟨keep, -, paths⟩ := forall₂_pathColumns E db h₄
    fun l hl deep => sub _ (mem l hl deep)
  have names := names_finish h
  refine ⟨names, ?_⟩
  rw [Query.rows_project project, List.forall₂_map_right_iff]
  refine forall₂_comp (forall₂_marks h₁ h₂ h₃) paths ?_
  rintro row next last ⟨keeps, depthCell, rootCell⟩ ⟨keeps', pathCells⟩
  have shown (name : String) (mem : name ∈ t.outputColumns) :
      E.cell t.outputColumns (t.outputColumns.map (E.cell q₄.schema.ids last)) name =
        E.cell q₄.schema.ids last name := by
    rw [← E.cell_names names]
    exact (Query.keeps_project project last name (Query.has_project project mem)).symm
  refine ⟨fun name hn has => ?_, ?_, ?_, fun l hl => ?_⟩
  · rw [shown name hn, keeps' name (Schema.has_of_subset sub _ has), keeps name has]
  · rw [shown depthColumn (by simp [outputColumns]),
      keeps' depthColumn (Schema.has_of_subset sub₁ _ (Query.has_extend h₁)), depthCell]
  · rw [shown rootColumn (by simp [outputColumns]), keeps' rootColumn (Query.has_extend h₃),
      rootCell]
  · rw [shown _ (mem_outputColumns_path hl), pathCells l hl]
    by_cases deep : l.1 < known
    · rw [if_pos deep, if_pos deep, keeps _ (Schema.has_of_mem (mem l hl deep))]
    · rw [if_neg deep, if_neg deep]

/-! ## Groups of base rows -/

section
variable (sound : t.Sound) {q g : Query} {count : Nat} (same : q.schema = t.base.schema)
  (h : t.groupRows q count = .ok g)
include sound same h

/-- Grouped rows have the pivot columns that they are grouped by. -/
theorem Sound.mem_of_groupRows {l : Nat × Column} (hl : l ∈ t.levels) (below : l.1 < count) :
    l.2 ∈ g.schema.columns := by
  obtain ⟨u, derived, rfl⟩ := Query.groupBy_eq_ok_iff.1 h
  obtain ⟨-, groups, rest, columns, found, -⟩ := Schema.groupBy_eq_ok_iff.1 derived
  obtain ⟨c, hc, eq⟩ := exists_of_mem_left found (mem_take_pivotIds.2 ⟨l, hl, below, rfl⟩)
  have known := sound.pivots_mem l.2 (List.mem_of_getElem? (mem_levels.1 hl))
  rw [same, Schema.find?_self known] at eq
  rw [columns, Option.some.inj eq]
  exact List.mem_append_left _ hc

omit sound same in
theorem cell_groupRows {l : Nat × Column} (hl : l ∈ t.levels) (below : l.1 < count)
    (members : List (List V)) :
    E.cell g.schema.ids (q.schema.groupRow E (t.pivotIds.take count) (t.folded count) members)
      l.2.id = E.cell q.schema.ids (members.headD []) l.2.id :=
  Query.cell_groupRow h members (mem_take_pivotIds.2 ⟨l, hl, below, rfl⟩)

omit sound in
/-- The row of a group has the pivot values of a row of the group. -/
theorem exists_member (pos : 0 < count) (deep : count ≤ t.depth) :
    ∀ row ∈ g.rows E db, ∃ b ∈ q.rows E db, ∀ l ∈ t.levels, l.1 < count →
      E.cell g.schema.ids row l.2.id = E.cell t.base.schema.ids b l.2.id := by
  have grouped : q.groupBy (t.pivotIds.take count) (t.folded count) = .ok g := h
  intro row hrow
  rw [Query.rows_groupBy grouped] at hrow
  obtain ⟨members, hm, rfl⟩ := List.mem_map.1 hrow
  refine ⟨members.headD [], ?_, fun l hl below => ?_⟩
  · exact q.schema.head_mem_of_mem_groups E (take_pivotIds_ne_nil pos deep) hm
  · rw [cell_groupRows h hl below, same]

end

section
variable (lawful : E.Lawful) {g : Query} {depth : Nat} (h : t.groupRows t.base depth = .ok g)
  (pos : 0 < depth) (deep : depth ≤ t.depth)
include h pos deep

include lawful in
/-- Every base row lies below a node of each depth. -/
theorem exists_node {b : List V} (hb : b ∈ t.base.rows E db) :
    ∃ node ∈ g.rows E db, ∀ l ∈ t.levels, l.1 < depth →
      E.same (E.cell t.base.schema.ids b l.2.id) (E.cell g.schema.ids node l.2.id) = true := by
  have grouped : t.base.groupBy (t.pivotIds.take depth) (t.folded depth) = .ok g := h
  obtain ⟨members, hm, same⟩ :=
    t.base.schema.exists_group lawful (take_pivotIds_ne_nil pos deep) hb
  rw [Schema.groupKeys, Schema.groupKeys, E.sameRow_map, List.all_eq_true] at same
  refine ⟨_, (Query.rows_groupBy grouped).symm ▸ List.mem_map_of_mem hm, fun l hl below => ?_⟩
  rw [cell_groupRows h hl below]
  exact lawful.same_symm _ _ (same _ (mem_take_pivotIds.2 ⟨l, hl, below, rfl⟩))

/-- Two nodes of a depth have different paths. -/
theorem nodes_distinct (E : Engine V) (db : Tables V) :
    (g.rows E db).Pairwise fun a b => ¬ ∀ l ∈ t.levels, l.1 < depth →
      E.same (E.cell g.schema.ids a l.2.id) (E.cell g.schema.ids b l.2.id) = true := by
  have grouped : t.base.groupBy (t.pivotIds.take depth) (t.folded depth) = .ok g := h
  rw [Query.rows_groupBy grouped, List.pairwise_map]
  refine (t.base.schema.groups_distinct (take_pivotIds_ne_nil pos deep)).imp ?_
  intro a b different all
  rw [Schema.groupKeys, Schema.groupKeys, E.sameRow_map, List.all_eq_false] at different
  obtain ⟨name, hname, different⟩ := different
  obtain ⟨l, hl, below, rfl⟩ := mem_take_pivotIds.1 hname
  have same := all l hl below
  rw [cell_groupRows h hl below, cell_groupRows h hl below] at same
  exact different same

end

/-! ## Ranks -/

/-- The rank of a node among the nodes of its depth. -/
def nodeRank (E : Engine V) (db : Tables V) (t : PivotTree) (depth : Nat) (nodes : Query)
    (position : Nat) : Nat :=
  E.rank ((nodes.rows E db).map (nodes.schema.sortValues E (t.nodeKeys depth))) position

/-- Every row of a query gets its rank. -/
theorem forall₂_ranked {q r : Query} {column : String} {keys : List SortKey}
    (h : q.extend column .integer (.rowNumber keys) = .ok r) :
    List.Forall₂ (fun position next => ∃ row, (q.rows E db)[position]? = some row ∧
        q.schema.Keeps E r.schema row next ∧ E.cell r.schema.ids next column =
          E.ordinal (E.rank ((q.rows E db).map (q.schema.sortValues E keys)) position))
      (List.range (q.rows E db).length) (r.rows E db) := by
  have typed : (Expr.rowNumber keys).type q.schema = .ok .integer := by
    obtain ⟨actual, typed⟩ := Query.exists_type_of_extend h
    rw [Expr.type] at typed ⊢
    split at typed
    · rfl
    · cases typed
  rw [Query.rows_extend h]
  refine List.forall₂_iff_get.2 ⟨by simp, fun i hi hj => ?_⟩
  have bound : i < (q.rows E db).length := by simpa using hi
  have wide := q.plan.rows_wide E db _ (List.getElem_mem bound)
  simp only [List.get_eq_getElem, List.getElem_range, List.getElem_mapIdx]
  refine ⟨(q.rows E db)[i], List.getElem?_eq_getElem bound, Query.keeps_extend h wide _, ?_⟩
  rw [Schema.extendRow, Query.cell_extend h wide, typed]
  exact if_pos rfl

/-- The ranks of a depth: one row for each node, with its path and its rank. -/
theorem forall₂_rankQuery (E : Engine V) (db : Tables V) (sound : t.Sound) {r : Query} {depth : Nat}
    (h : t.rankQuery depth = .ok r) :
    0 < depth ∧ depth ≤ t.depth ∧ ∃ g, t.groupRows t.base depth = .ok g ∧
      (∀ l ∈ t.levels, l.1 < depth → r.schema.has (pathColumn l.1) = true) ∧
      r.schema.has (rankColumn depth) = true ∧
      List.Forall₂ (fun position row => ∃ node, (g.rows E db)[position]? = some node ∧
          (∀ l ∈ t.levels, l.1 < depth →
            E.cell r.schema.ids row (pathColumn l.1) = E.cell g.schema.ids node l.2.id) ∧
          E.cell r.schema.ids row (rankColumn depth) =
            E.ordinal (t.nodeRank E db depth g position))
        (List.range (g.rows E db).length) (r.rows E db) := by
  obtain ⟨pos, deep, g, ranked, q, grouped, extended, columns, project⟩ := rankQuery_eq_ok_iff.1 h
  have pivots (l : Nat × Column) (hl : l ∈ t.levels.take depth) (below : l.1 < depth) :
      l.2 ∈ ranked.schema.columns :=
    Query.mem_extend extended (sound.mem_of_groupRows rfl grouped (List.mem_of_mem_take hl) below)
  obtain ⟨keep, -, paths⟩ := forall₂_pathColumns E db columns pivots
  have pathHas (l : Nat × Column) (below : l.1 < depth) :
      pathColumn l.1 ∈ (List.range depth).map pathColumn ++ [rankColumn depth] :=
    List.mem_append_left _ (List.mem_map_of_mem (List.mem_range.2 below))
  have rankHas : rankColumn depth ∈ (List.range depth).map pathColumn ++ [rankColumn depth] := by
    simp
  refine ⟨pos, deep, g, grouped,
    fun l _ below => Query.has_project project (pathHas l below),
    Query.has_project project rankHas, ?_⟩
  rw [Query.rows_project project, List.forall₂_map_right_iff]
  refine forall₂_comp (forall₂_ranked extended) paths ?_
  rintro position row next ⟨node, hn, keeps, rank⟩ ⟨keeps', path⟩
  refine ⟨node, hn, fun l hl below => ?_, ?_⟩
  · have mem := mem_take_levels.2 ⟨hl, below⟩
    rw [← Query.keeps_project project next _ (Query.has_project project (pathHas l below)),
      path l mem, if_pos below,
      keeps _ (Schema.has_of_mem (sound.mem_of_groupRows rfl grouped hl below))]
  · rw [← Query.keeps_project project next _ (Query.has_project project rankHas),
      keeps' _ (Query.has_extend extended), rank]
    rfl

/-! ## Rows of the tree -/

/-- A row lies at a depth, and shows the path of a base row down to that depth. -/
structure PlacedAt (E : Engine V) (db : Tables V) (t : PivotTree) (row : List V) (n : Nat) :
    Prop where
  bound : n ≤ t.depth + 1
  depth : E.cell t.outputColumns row depthColumn = E.constant (.int (Int64.ofNat n))
  path : 0 < n → 0 < t.depth → ∃ b ∈ t.base.rows E db, ∀ l ∈ t.levels, l.1 < n →
    E.cell t.outputColumns row (pathColumn l.1) = E.cell t.base.schema.ids b l.2.id

/-- All rows of a part are placed. -/
structure Placed (E : Engine V) (db : Tables V) (t : PivotTree) (q : Query) : Prop where
  names : List.Forall₂ SameName q.schema.ids t.outputColumns
  rows : ∀ row ∈ q.rows E db, ∃ n, t.PlacedAt E db row n

/-- Finished rows are placed if each shows the pivot values of a base row. -/
theorem placed_finish {q r : Query} {depth known : Nat} {label : Expr} {isRoot : Bool}
    (h : t.finish q depth label isRoot known = .ok r) (bound : depth ≤ t.depth + 1)
    (mem : ∀ l ∈ t.levels, l.1 < known → l.2 ∈ q.schema.columns)
    (within : ∀ l ∈ t.levels, l.1 < depth → l.1 < known)
    (of : 0 < depth → 0 < t.depth → ∀ row ∈ q.rows E db, ∃ b ∈ t.base.rows E db,
      ∀ l ∈ t.levels, l.1 < known →
        E.cell q.schema.ids row l.2.id = E.cell t.base.schema.ids b l.2.id) :
    t.Placed E db r := by
  obtain ⟨names, each⟩ := forall₂_finish E db h mem
  refine ⟨names, fun next hn => ⟨depth, bound, ?_, ?_⟩⟩
  · obtain ⟨row, -, finished⟩ := exists_of_mem_right each hn
    exact finished.depth
  · intro pos some
    obtain ⟨row, hrow, finished⟩ := exists_of_mem_right each hn
    obtain ⟨b, hb, cells⟩ := of pos some row hrow
    refine ⟨b, hb, fun l hl below => ?_⟩
    rw [finished.path l hl, if_pos (within l hl below), cells l hl (within l hl below)]

theorem filterPath_rows (E : Engine V) (db : Tables V) {path : List Scalar} {q : Query}
    (h : t.filterPath path = .ok q) :
    q.schema = t.base.schema ∧ ∀ row ∈ q.rows E db, row ∈ t.base.rows E db := by
  unfold filterPath at h
  split at h
  · cases h
    exact ⟨rfl, fun _ h => h⟩
  · obtain ⟨conditions, -, h⟩ := bind_eq_ok_iff.1 h
    exact Query.filter_rows E db h

theorem placed_rootQuery {r : Query} (h : t.rootQuery = .ok r) : t.Placed E db r := by
  obtain ⟨g, -, finished⟩ := rootQuery_eq_ok_iff.1 h
  refine placed_finish finished (Nat.zero_le _) ?_ (fun _ _ h => h)
    fun pos => absurd pos (Nat.lt_irrefl _)
  exact fun l _ below => absurd below (Nat.not_lt_zero _)

theorem Children.placed (sound : t.Sound) {path : List Scalar} {rows r : Query}
    (same : rows.schema = t.base.schema)
    (sub : ∀ row ∈ rows.rows E db, row ∈ t.base.rows E db)
    (h : t.Children path rows r) : t.Placed E db r := by
  -- Below the last pivot a row shows the whole path, though its depth is one more.
  have within (l : Nat × Column) (hl : l ∈ t.levels) (_ : l.1 < t.depth + 1) : l.1 < t.depth :=
    lt_of_mem_levels hl
  cases h with
  | groups next grouped finished =>
    have deep : path.length + 1 ≤ t.depth := (List.getElem?_eq_some_iff.1 next).1
    refine placed_finish finished (by omega) (fun l hl => sound.mem_of_groupRows same grouped hl)
      (fun _ _ h => h) fun _ _ row hrow => ?_
    obtain ⟨b, hb, cells⟩ := exists_member same grouped (Nat.succ_pos _) deep row hrow
    exact ⟨b, sub b hb, cells⟩
  | leaves last shown finished =>
    refine placed_finish finished (Nat.le_refl _) (fun l hl _ => ?_) within fun _ _ row hrow => ?_
    · rw [same]
      exact sound.pivots_mem l.2 (List.mem_of_getElem? (mem_levels.1 hl))
    · exact ⟨row, sub row hrow, fun l _ _ => by rw [same]⟩
  | hidden last hidden grouped emptied finished =>
    obtain ⟨kept, fewer⟩ := Query.filter_rows E db emptied
    refine placed_finish finished (Nat.le_refl _) (fun l hl below => ?_) within
      fun _ some row hrow => ?_
    · rw [kept]
      exact sound.mem_of_groupRows same grouped hl below
    · rw [kept]
      obtain ⟨b, hb, cells⟩ := exists_member same grouped some (Nat.le_refl _) row (fewer row hrow)
      exact ⟨b, sub b hb, cells⟩

theorem placed_pathQuery (sound : t.Sound) {path : List Scalar} {r : Query}
    (h : t.pathQuery path = .ok r) : t.Placed E db r := by
  obtain ⟨-, rows, filtered, children⟩ := pathQuery_eq_ok_iff.1 h
  obtain ⟨same, sub⟩ := filterPath_rows E db filtered
  exact children.placed sound same sub

theorem placed_concat {q other r : Query} (hq : t.Placed E db q) (ho : t.Placed E db other)
    (h : q.concat other = .ok r) : t.Placed E db r := by
  obtain ⟨ids, rows⟩ := Query.concat_rows E db h
  refine ⟨ids ▸ hq.names, fun row hr => ?_⟩
  rw [rows] at hr
  exact (List.mem_append.1 hr).elim (hq.rows row) (ho.rows row)

/-- All rows of the tree are placed. -/
theorem placed_treeQuery (sound : t.Sound) {openPaths : OpenPaths} {expandRoot : Bool} {q : Query}
    (h : t.treeQuery openPaths expandRoot = .ok q) : t.Placed E db q := by
  obtain ⟨root, parts, hroot, each, all⟩ := treeQuery_eq_ok_iff.1 h
  refine concatAll_closed (fun _ _ _ => placed_concat) all
    (List.forall_mem_append.2 ⟨?_, fun p hp => ?_⟩)
  · unfold rootPart at hroot
    split at hroot
    · obtain ⟨r, hr, rfl⟩ := map_eq_ok_iff.1 hroot
      simpa using placed_rootQuery hr
    · cases hroot
      simp
  · obtain ⟨path, -, hpath⟩ := exists_of_mem_right each hp
    exact placed_pathQuery sound hpath

end PivotTree

end Crosstab
