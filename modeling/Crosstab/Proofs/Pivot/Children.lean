import Crosstab.Proofs.Meaning.Exact
import Crosstab.Proofs.Pivot.Matching
import Crosstab.Proofs.Pivot.Sorting

/-!
# Children and their rows

What the children of a node show: above the last level one group for each value of the next pivot
among the base rows below the node, with aggregates over exactly the rows of the group; below the
last level the base rows themselves, if the layout shows them. So sums over the children are the
sums of the node.
-/

namespace Crosstab

variable {V : Type} {E : Engine V} {db : Tables V}

namespace PivotTree

variable {t : PivotTree}

/-- A row is that of the node at the end of a path. It shows its depth, the path with nulls below
it, the pivot values on the path, and in every other base column the aggregate of the base rows that
have the path. -/
structure NodeRow (E : Engine V) (db : Tables V) (t : PivotTree) (path row : List V) : Prop where
  depth : E.cell t.outputColumns row depthColumn = E.constant (.int (Int64.ofNat path.length))
  along : ∀ l ∈ t.levels, ∀ v, path[l.1]? = some v →
    E.same (E.cell t.outputColumns row (pathColumn l.1)) v = true
  beyond : ∀ l ∈ t.levels, path.length ≤ l.1 →
    E.cell t.outputColumns row (pathColumn l.1) = E.null
  pivots : ∀ l ∈ t.levels, l.1 < path.length →
    E.cell t.outputColumns row l.2.id = E.cell t.outputColumns row (pathColumn l.1)
  aggregates : ∀ b ∈ t.base.schema.columns, b ∉ t.pivots.take path.length →
    E.cell t.outputColumns row b.id = (chosenAggregate t.spec b).apply E
      ((t.rowsWith E db path).map fun row => E.cell t.base.schema.ids row b.id)

/-- A row shows a base row: its depth, its pivot values as its path, and all its values. -/
structure LeafRow (E : Engine V) (t : PivotTree) (base row : List V) : Prop where
  depth : E.cell t.outputColumns row depthColumn = E.constant (.int (Int64.ofNat (t.depth + 1)))
  along : ∀ l ∈ t.levels, E.cell t.outputColumns row (pathColumn l.1) =
    E.cell t.base.schema.ids base l.2.id
  values : ∀ b ∈ t.base.schema.columns,
    E.cell t.outputColumns row b.id = E.cell t.base.schema.ids base b.id

/-- There is one row for each value that the next pivot has among the base rows with a path, a null
counting as a value. -/
def OneRowPerValue (E : Engine V) (db : Tables V) (t : PivotTree) (path : List V) (pivot : Column)
    (rows : List (List V)) : Prop :=
  ∃ values : List V, values.Pairwise (fun v w => E.same v w = false) ∧
    (∀ row ∈ t.rowsWith E db path,
      ∃ v ∈ values, E.same (E.cell t.base.schema.ids row pivot.id) v = true) ∧
    List.Forall₂ (fun v row => t.rowsWith E db (path ++ [v]) ≠ [] ∧
      t.NodeRow E db (path ++ [v]) row) values rows

/-! ## Aggregates -/

theorem eq_of_aggregateOf {spec : PivotSpec} {pivots : List Column} {c : Column}
    {a : AggregateColumn} (h : aggregateOf spec pivots c = .ok a) :
    a = ⟨chosenAggregate spec c, c.id⟩ := by
  unfold aggregateOf at h
  obtain ⟨output, -, h⟩ := bind_eq_ok_iff.1 h
  dsimp only at h
  split at h
  · cases h
  · exact (pure_eq_ok_iff.1 h).symm

theorem mem_folded_of_make {base : Query} {spec : PivotSpec} (made : make base spec = .ok t)
    {count : Nat} {b : Column} (hb : b ∈ t.base.schema.columns) (other : b ∉ t.pivots.take count) :
    ⟨chosenAggregate t.spec b, b.id⟩ ∈ t.folded count := by
  have sound := sound_of_make made
  obtain ⟨-, -, -, -, -, aggregates, layout⟩ := make_eq_ok made
  obtain ⟨a, ha, eq⟩ := exists_of_mem_left (mapM_eq_ok_iff.1 aggregates) hb
  rw [eq_of_aggregateOf eq, ← layout] at ha
  refine mem_folded.2 ⟨ha, fun group => other ?_⟩
  obtain ⟨l, hl, deep, id⟩ := mem_take_pivotIds.1 group
  have mem := mem_take_pivots.2 ⟨l, hl, deep, rfl⟩
  rwa [← Schema.eq_of_sameName (sound.mem_take mem) hb (congrArg foldCase id)]

theorem mem_outputColumns_base {b : Column} (h : b ∈ t.base.schema.columns) :
    b.id ∈ t.outputColumns :=
  List.mem_append_left _ (List.mem_append_left _ (List.mem_map_of_mem h))

/-- Grouped rows have all base columns. -/
theorem Sound.has_of_groupRows (sound : t.Sound) {q g : Query} (same : q.schema = t.base.schema)
    {count : Nat} (h : t.groupRows q count = .ok g) {b : Column}
    (hb : b ∈ t.base.schema.columns) : g.schema.has b.id = true := by
  obtain ⟨r, hr, ready⟩ := exists_groupRows sound same count
  obtain rfl := Except.ok.inj (hr.symm.trans h)
  obtain ⟨c, hc, id, -⟩ := ready.shown b hb
  exact Schema.has_iff.2 ⟨c, hc, congrArg foldCase id⟩

/-! ## Groups -/

section
variable {base : Query} {spec : PivotSpec} (made : make base spec = .ok t)
include made

/-- The finished row of a group is the row of a node, if the group is all base rows with a path. -/
theorem nodeRow_of_finished {q g : Query} (same : q.schema = t.base.schema) {count : Nat}
    (grouped : t.groupRows q count = .ok g) {isRoot : Bool} {members : List (List V)}
    {next path : List V} (len : path.length = count)
    (finished : Finished E t g.schema count count isRoot
      (q.schema.groupRow E (t.pivotIds.take count) (t.folded count) members) next)
    (head : ∀ l ∈ t.levels, ∀ v, path[l.1]? = some v →
      E.same (E.cell t.base.schema.ids (members.headD []) l.2.id) v = true)
    (all : members = t.rowsWith E db path) : t.NodeRow E db path next := by
  have sound := sound_of_make made
  have below : q.groupBy (t.pivotIds.take count) (t.folded count) = .ok g := grouped
  have shown {b : Column} (hb : b ∈ t.base.schema.columns) :=
    finished.keeps b.id (mem_outputColumns_base hb) (sound.has_of_groupRows same grouped hb)
  have onPath {l : Nat × Column} (hl : l ∈ t.levels) (deep : l.1 < count) :
      E.cell t.outputColumns next (pathColumn l.1) =
        E.cell q.schema.ids (members.headD []) l.2.id := by
    rw [finished.path l hl, if_pos deep, cell_groupRows grouped hl deep]
  refine ⟨?_, ?_, ?_, ?_, ?_⟩
  · rw [finished.depth, len]
  · intro l hl v hv
    have deep := (List.getElem?_eq_some_iff.1 hv).1
    rw [onPath hl (by omega), same]
    exact head l hl v hv
  · intro l hl above
    rw [finished.path l hl, if_neg (by omega)]
  · intro l hl deep
    have known := sound.pivots_mem l.2 (List.mem_of_getElem? (mem_levels.1 hl))
    rw [shown known, finished.path l hl, if_pos (by omega)]
  · intro b hb other
    have mem := mem_folded_of_make made hb (len ▸ other)
    rw [shown hb, ← all, ← same]
    exact Query.cell_groupRow_aggregate below members mem

/-- The root shows the aggregates of all base rows. -/
theorem rootQuery_rows (E : Engine V) (db : Tables V) {r : Query} (h : t.rootQuery = .ok r) :
    ∃ row, r.rows E db = [row] ∧ t.NodeRow E db [] row := by
  obtain ⟨g, grouped, finished⟩ := rootQuery_eq_ok_iff.1 h
  obtain ⟨-, each⟩ := forall₂_finish E db finished
    fun l _ below => absurd below (Nat.not_lt_zero _)
  have all : t.base.groupBy (t.pivotIds.take 0) (t.folded 0) = .ok g := grouped
  have one : g.rows E db = [t.base.schema.groupRow E (t.pivotIds.take 0) (t.folded 0)
      (t.base.rows E db)] := by
    rw [Query.rows_groupBy all, List.take_zero, Schema.groups, if_pos rfl]
    rfl
  rw [one] at each
  obtain ⟨row, rows, first, rest, eq⟩ := List.forall₂_cons_left_iff.1 each
  obtain rfl := List.forall₂_nil_left_iff.1 rest
  have everything : t.base.rows E db = t.rowsWith E db [] := by
    rw [rowsWith, eq_comm, List.filter_eq_self]
    intro row _
    exact hasPath_iff.2 fun l _ v hv => by simp at hv
  refine ⟨row, eq, ?_⟩
  refine nodeRow_of_finished made rfl grouped rfl first (fun l _ v hv => ?_) everything
  simp at hv

variable (comparing : E.Comparing) {path : List Scalar} (fitting : t.Fitting path)
include comparing fitting

/-- A node above the last level has one child for each value of the next pivot. -/
theorem oneRowPerValue {pivot : Column} (next : t.pivots[path.length]? = some pivot) {q : Query}
    (h : t.pathQuery path = .ok q) :
    t.OneRowPerValue E db (path.map E.constant) pivot (q.rows E db) := by
  have sound := sound_of_make made
  have lawful := comparing.toLawful
  obtain ⟨short, rows, filtered, children⟩ := pathQuery_eq_ok_iff.1 h
  cases children with
  | leaves last => rw [next] at last; cases last
  | hidden last => rw [next] at last; cases last
  | groups _ grouped finished =>
    have deep : path.length + 1 ≤ t.depth := (List.getElem?_eq_some_iff.1 next).1
    have here : t.pivots[(path.map E.constant).length]? = some pivot := by rwa [List.length_map]
    obtain ⟨same, kept⟩ := rows_filterPath comparing db short filtered
    rw [below_eq_hasPath comparing fitting] at kept
    obtain ⟨-, each⟩ := forall₂_finish E db finished
      fun l hl => sound.mem_of_groupRows same grouped hl
    have below : rows.groupBy (t.pivotIds.take (path.length + 1)) (t.folded (path.length + 1)) =
      .ok _ := grouped
    rw [Query.rows_groupBy below, List.forall₂_map_left_iff, same, kept,
      ← List.length_map E.constant] at each
    refine ⟨_, groupValues_distinct lawful here db, fun row => exists_groupValue lawful here, ?_⟩
    rw [List.forall₂_map_left_iff]
    refine (forall₂_mem each).imp fun members row ⟨group, finished⟩ => ?_
    have known := (List.mem_filter.1 (head_mem_rowsWith here group)).1
    have head := head_hasPath lawful here group
    constructor
    · exact List.ne_nil_of_mem (List.mem_filter.2 ⟨known, head⟩)
    · rw [List.length_map, ← same] at finished
      refine nodeRow_of_finished made same grouped (by simp) finished (hasPath_iff.1 head) ?_
      exact members_eq_rowsWith lawful here group

/-- Below the last level stand the base rows, if the layout shows them. -/
theorem leaves_of_pathQuery (db : Tables V) (last : path.length = t.depth) {q : Query}
    (h : t.pathQuery path = .ok q) :
    if t.spec.showLeafRows = true
    then List.Forall₂ (t.LeafRow E) (t.rowsWith E db (path.map E.constant)) (q.rows E db)
    else q.rows E db = [] := by
  have sound := sound_of_make made
  obtain ⟨short, rows, filtered, children⟩ := pathQuery_eq_ok_iff.1 h
  obtain ⟨same, kept⟩ := rows_filterPath comparing db short filtered
  rw [below_eq_hasPath comparing fitting] at kept
  cases children with
  | groups next =>
    have deep := (List.getElem?_eq_some_iff.1 next).1
    exact absurd deep (by rw [last]; exact Nat.lt_irrefl _)
  | leaves _ shown finished =>
    have known {l : Nat × Column} (hl : l ∈ t.levels) : l.2 ∈ t.base.schema.columns :=
      sound.pivots_mem l.2 (List.mem_of_getElem? (mem_levels.1 hl))
    obtain ⟨-, each⟩ := forall₂_finish E db finished fun l hl _ => same ▸ known hl
    rw [if_pos shown, rowsWith, ← kept]
    refine each.imp fun base row finished => ⟨finished.depth, fun l hl => ?_, fun b hb => ?_⟩
    · rw [finished.path l hl, if_pos (lt_of_mem_levels hl), same]
    · have has : rows.schema.has b.id = true := same ▸ Schema.has_of_mem hb
      rw [finished.keeps b.id (mem_outputColumns_base hb) has, same]
  | hidden _ hidden grouped emptied finished =>
    obtain ⟨checked, rfl⟩ := Query.filter_eq_ok_iff.1 emptied
    obtain ⟨-, each⟩ := forall₂_finish E db finished
      fun l hl deep => sound.mem_of_groupRows same grouped hl deep
    rw [if_neg (Bool.eq_false_iff.1 hidden), List.eq_nil_iff_forall_not_mem]
    intro row hrow
    obtain ⟨group, hg, -⟩ := exists_of_mem_right each hrow
    have kept : E.isTrue (E.constant (.bool false)) = true := (List.mem_filter.1 hg).2
    rw [comparing.false_not_true] at kept
    cases kept

end

/-! ## Sums -/

/-- Every base row counts once. -/
theorem cell_recordColumn {base : Query} {spec : PivotSpec} (made : make base spec = .ok t) :
    ∀ row ∈ t.base.rows E db,
      E.cell t.base.schema.ids row recordColumn = E.constant (.int 1) := by
  obtain ⟨-, -, -, extended, -⟩ := make_eq_ok made
  intro row hrow
  obtain ⟨_, -, -, value⟩ := exists_of_mem_right (Query.forall₂_extend extended) hrow
  obtain ⟨_, value⟩ := value rfl
  exact value

/-- The number of base rows is not grouped by. -/
theorem record_not_mem_pivots {base : Query} {spec : PivotSpec} (made : make base spec = .ok t) :
    Column.named recordColumn .integer ∉ t.pivots := by
  obtain ⟨-, pivots, -, extended, -⟩ := make_eq_ok made
  obtain ⟨known, -⟩ := resolvePivots_spec pivots
  obtain ⟨u, derived, -⟩ := Query.extend_eq_ok_iff.1 extended
  obtain ⟨new, -⟩ := Schema.extend_eq_ok_iff.1 derived
  intro mem
  exact Schema.has_eq_false_iff.1 new _ (known _ mem) (SameName.refl _)

section
variable {read : V → Option Int} (exactly : E.Exact read) {b : Column}
  (column : b ∈ t.base.schema.columns) (summed : chosenAggregate t.spec b = .sum)
  {f : List V → Int}
  (whole : ∀ row ∈ t.base.rows E db, read (E.cell t.base.schema.ids row b.id) = some (f row))
include exactly column summed whole

/-- A node shows the sum over its base rows. -/
theorem NodeRow.read_sum {path row : List V} (node : t.NodeRow E db path row)
    (other : b ∉ t.pivots.take path.length) : read (E.cell t.outputColumns row b.id) =
      some ((t.rowsWith E db path).map f).sum := by
  rw [node.aggregates b column other, summed]
  refine exactly.sum _ _ (addUp_map fun row hrow => whole row ?_)
  exact (List.mem_filter.1 hrow).1

/-- The sums of the groups below a node add up to the sum over its base rows. -/
theorem OneRowPerValue.addUp (lawful : E.Lawful) {path : List V} {pivot : Column}
    (next : t.pivots[path.length]? = some pivot) (other : b ∉ t.pivots.take (path.length + 1))
    {rows : List (List V)} (h : t.OneRowPerValue E db path pivot rows) :
    AddUp read (rows.map fun row => E.cell t.outputColumns row b.id)
      ((t.rowsWith E db path).map f).sum := by
  obtain ⟨values, distinct, all, each⟩ := h
  refine ⟨values.map fun v => ((t.rowsWith E db (path ++ [v])).map f).sum, ?_, ?_⟩
  · rw [List.map_map, List.map_map, eq_comm]
    refine map_eq_map_of_forall₂ each fun v row ⟨_, node⟩ => ?_
    have sum := node.read_sum exactly column summed whole (by simpa using other)
    exact sum.symm
  · simp only [rowsWith_append next]
    exact sum_classes lawful f distinct all

omit exactly column summed in
/-- The values of the base rows below a node add up to the sum over them. -/
theorem addUp_leaves (column : b ∈ t.base.schema.columns) {path : List V} {rows : List (List V)}
    (h : List.Forall₂ (t.LeafRow E) (t.rowsWith E db path) rows) :
    AddUp read (rows.map fun row => E.cell t.outputColumns row b.id)
      ((t.rowsWith E db path).map f).sum := by
  refine ⟨(t.rowsWith E db path).map f, ?_, rfl⟩
  rw [List.map_map, List.map_map, eq_comm]
  refine map_eq_map_of_forall₂ (forall₂_mem h) fun base row ⟨known, leaf⟩ => ?_
  have value := whole base (List.mem_filter.1 known).1
  rw [Function.comp_apply, Function.comp_apply, leaf.values b column, value]

/-- The values that the children show add up to the sum over the base rows below their parent. -/
theorem addUp_pathQuery {base : Query} {spec : PivotSpec} (made : make base spec = .ok t)
    (comparing : E.Comparing) {path : List Scalar} (fitting : t.Fitting path) {q : Query}
    (h : t.pathQuery path = .ok q) (shown : path.length < t.depth ∨ t.spec.showLeafRows = true)
    (other : b ∉ t.pivots.take (path.length + 1)) :
    AddUp read ((q.rows E db).map fun row => E.cell t.outputColumns row b.id)
      ((t.rowsWith E db (path.map E.constant)).map f).sum := by
  by_cases deep : path.length < t.depth
  · have next : t.pivots[path.length]? = some t.pivots[path.length] :=
      List.getElem?_eq_getElem deep
    have groups : t.OneRowPerValue E db (path.map E.constant) _ (q.rows E db) :=
      oneRowPerValue made comparing fitting next h
    have here : t.pivots[(path.map E.constant).length]? = some t.pivots[path.length] := by
      rwa [List.length_map]
    refine groups.addUp exactly column summed whole comparing.toLawful here ?_
    rwa [List.length_map]
  · have last : path.length = t.depth := Nat.le_antisymm (pathQuery_eq_ok_iff.1 h).1 (by omega)
    refine addUp_leaves whole column ?_
    have leaves := leaves_of_pathQuery made comparing fitting db last h
    rwa [if_pos (shown.resolve_left deep)] at leaves

end

/-! ## Whether there are children -/

/-- The columns of a part have distinct names, so none of the tree's own can be a base column. -/
theorem not_sameName_of_names {s : Schema} (names : List.Forall₂ SameName s.ids t.outputColumns)
    {b : Column} (hb : b ∈ t.base.schema.columns) {n : Nat} (hn : n < t.depth) :
    ¬ SameName b.id (pathColumn n) := by
  rw [Schema.ids, List.forall₂_map_left_iff] at names
  have folded : (s.columns.map fun c => foldCase c.id) = t.outputColumns.map foldCase :=
    map_eq_map_of_forall₂ names fun _ _ same => same
  have distinct := s.ids_distinct
  rw [folded, outputColumns, List.append_assoc, List.map_append] at distinct
  obtain ⟨-, -, apart⟩ := List.nodup_append.1 distinct
  have column : foldCase b.id ∈ t.base.schema.ids.map foldCase :=
    List.mem_map_of_mem (List.mem_map_of_mem hb)
  have added : pathColumn n ∈ (List.range t.depth).map pathColumn :=
    List.mem_map_of_mem (List.mem_range.2 hn)
  exact apart _ column _ (List.mem_map_of_mem (List.mem_append_right _ added))

theorem names_pathQuery {path : List Scalar} {q : Query} (h : t.pathQuery path = .ok q) :
    List.Forall₂ SameName q.schema.ids t.outputColumns := by
  obtain ⟨-, rows, -, children⟩ := pathQuery_eq_ok_iff.1 h
  cases children with
  | groups _ _ finished | leaves _ _ finished | hidden _ _ _ _ finished =>
    exact names_finish finished

/-- The children of a node can be found if and only if no base column is named like a path column
of the tree. -/
theorem exists_pathQuery_iff {base : Query} {spec : PivotSpec} (made : make base spec = .ok t)
    {path : List Scalar} (short : path.length ≤ t.depth) :
    (∃ q, t.pathQuery path = .ok q) ↔
      ∀ c ∈ base.schema.columns, ∀ n < t.depth, ¬ SameName c.id (pathColumn n) := by
  constructor
  · intro ⟨q, hq⟩ c hc n hn
    obtain ⟨-, -, -, extended, -⟩ := make_eq_ok made
    exact not_sameName_of_names (names_pathQuery hq) (Query.mem_extend extended hc) hn
  · intro paths
    have free := free_of_make made paths
    obtain ⟨q, hq, -⟩ := exists_pathQuery_of_free (sound_of_make made) free path short
    exact ⟨q, hq⟩

/-! ## All together -/

/-- The children of a node cover exactly the base rows below it. They can be found, if no base
column is named like a path column. Above the last level there is one row for each value of the
next pivot, below it stand the base rows or nothing. So, where children are shown, their numbers of
records add up to the number of base rows below the node, and sums of integers add up to the sum
that the node itself shows. -/
theorem pathQuery_rows (comparing : E.Comparing) (db : Tables V) {base : Query} {spec : PivotSpec}
    (made : make base spec = .ok t) {path : List Scalar} (short : path.length ≤ t.depth)
    (fitting : t.Fitting path) :
    ((∃ q, t.pathQuery path = .ok q) ↔
      ∀ c ∈ base.schema.columns, ∀ n < t.depth, ¬ SameName c.id (pathColumn n)) ∧
    (∀ r, t.rootQuery = .ok r → ∃ row, r.rows E db = [row] ∧ t.NodeRow E db [] row) ∧
    ∀ q, t.pathQuery path = .ok q →
      (∀ pivot, t.pivots[path.length]? = some pivot →
        t.OneRowPerValue E db (path.map E.constant) pivot (q.rows E db)) ∧
      (path.length = t.depth →
        if t.spec.showLeafRows = true
        then List.Forall₂ (t.LeafRow E) (t.rowsWith E db (path.map E.constant)) (q.rows E db)
        else q.rows E db = []) ∧
      ∀ read, E.Exact read → (path.length < t.depth ∨ t.spec.showLeafRows = true) →
        (chosenAggregate t.spec (.named recordColumn .integer) = .sum →
          AddUp read ((q.rows E db).map fun row => E.cell t.outputColumns row recordColumn)
            (t.rowsWith E db (path.map E.constant)).length) ∧
        ∀ b ∈ t.base.schema.columns, b ∉ t.pivots.take (path.length + 1) →
          chosenAggregate t.spec b = .sum →
          (∀ row ∈ t.base.rows E db, (read (E.cell t.base.schema.ids row b.id)).isSome = true) →
          ∀ own node, List.Forall₂ (fun v w => E.same v w = true) own (path.map E.constant) →
            t.NodeRow E db own node → ∃ total,
              read (E.cell t.outputColumns node b.id) = some total ∧
              AddUp read ((q.rows E db).map fun row => E.cell t.outputColumns row b.id) total := by
  have sound := sound_of_make made
  refine ⟨exists_pathQuery_iff made short, fun r root => rootQuery_rows made E db root,
    fun q hq => ?_⟩
  refine ⟨fun pivot next => oneRowPerValue made comparing fitting next hq,
    fun last => leaves_of_pathQuery made comparing fitting db last hq, fun read exactly shown => ?_⟩
  constructor
  · intro summed
    have other : Column.named recordColumn .integer ∉ t.pivots.take (path.length + 1) :=
      fun mem => record_not_mem_pivots made (List.mem_of_mem_take mem)
    have one (row : List V) (hrow : row ∈ t.base.rows E db) :
        read (E.cell t.base.schema.ids row recordColumn) = some 1 := by
      rw [cell_recordColumn made row hrow, exactly.int]
      rfl
    have total :=
      addUp_pathQuery exactly sound.record summed one made comparing fitting hq shown other
    rwa [List.map_const', List.sum_replicate_int, Int.mul_one] at total
  · intro b column other summed whole own node same shows
    have value (row : List V) (hrow : row ∈ t.base.rows E db) :
        read (E.cell t.base.schema.ids row b.id) =
          some ((read (E.cell t.base.schema.ids row b.id)).getD 0) := by
      obtain ⟨n, hn⟩ := Option.isSome_iff_exists.1 (whole row hrow)
      rw [hn]
      rfl
    have total :=
      addUp_pathQuery exactly column summed value made comparing fitting hq shown other
    refine ⟨_, ?_, total⟩
    rw [← rowsWith_congr comparing.toLawful same]
    refine shows.read_sum exactly column summed value fun mem => other ?_
    rw [same.length_eq, List.length_map] at mem
    exact List.take_subset_take_left _ (Nat.le_succ _) mem

/-- Below the region without a name lie two sales of the same amount. -/
theorem pathQuery_rows_nullRegion : unbounded.Comparing ∧ unbounded.Exact Datum.toInt? ∧
    ∃ t, make regionSales largestSales = .ok t ∧ [Scalar.null].length ≤ t.depth ∧
      t.Fitting [.null] ∧ ∃ q, t.pathQuery [.null] = .ok q ∧
        t.OneRowPerValue unbounded unboundedSales [.null] (.named "amount" .integer)
          (q.rows unbounded unboundedSales) ∧
        AddUp Datum.toInt? ((q.rows unbounded unboundedSales).map fun row =>
          unbounded.cell t.outputColumns row recordColumn) 2 ∧
        q.rows unbounded unboundedSales =
          [[.null, .int 3, .int 2, .int 2, .text "3", .int 0, .null, .int 3]] := by
  obtain ⟨t, made, two, next⟩ : ∃ t, make regionSales largestSales = .ok t ∧ t.depth = 2 ∧
      t.pivots[1]? = some (.named "amount" .integer) := ⟨_, rfl, rfl, rfl⟩
  have shown : (make regionSales largestSales).toOption.bind (fun t =>
      (t.pathQuery [.null]).toOption.map fun q => (q.rows unbounded unboundedSales,
        (t.rowsWith unbounded unboundedSales [.null]).length)) =
      some ([[.null, .int 3, .int 2, .int 2, .text "3", .int 0, .null, .int 3]], 2) := by
    decide +kernel
  rw [made] at shown
  obtain ⟨q, hq, rows⟩ := Option.map_eq_some_iff.1 shown
  have queryOk : t.pathQuery [.null] = .ok q := by
    cases h : t.pathQuery [.null] with
    | error e => rw [h] at hq; cases hq
    | ok q => rw [h] at hq; cases hq; rfl
  have fitting : t.Fitting [.null] :=
    fun l hl => .inl (List.mem_singleton.1 (List.of_mem_zip hl).2)
  have short : [Scalar.null].length ≤ t.depth := by simp [two]
  obtain ⟨-, -, children⟩ := pathQuery_rows unbounded_comparing unboundedSales made short fitting
  obtain ⟨groups, -, sums⟩ := children q queryOk
  obtain ⟨records, -⟩ := sums Datum.toInt? unbounded_exact (.inl (by simp [two]))
  obtain ⟨-, -, -, -, -, -, layout⟩ := make_eq_ok made
  have count : (t.rowsWith unbounded unboundedSales [.null]).length = 2 := congrArg (·.2) rows
  have total := records (by rw [layout]; rfl)
  change AddUp _ _ ((t.rowsWith unbounded unboundedSales [.null]).length : Int) at total
  rw [count] at total
  exact ⟨unbounded_comparing, unbounded_exact, t, made, short, fitting, q, queryOk,
    groups _ next, total, congrArg (·.1) rows⟩

/-- Readings by group. One column has the name of a path column in capitals. -/
def capitalReadings : Query where
  schema := ⟨[.named "group" .text, .named "_PATH0" .integer], by decide, by decide⟩
  plan := .table "readings" _ (by decide)

def readingsByGroup : PivotSpec := { PivotSpec.default with pivotColumns := ["group"] }

/-- Reserved prefixes are compared with their case, so capitals are accepted; but then the path
column cannot be added, and the root has no children. -/
theorem pathQuery_error_capitalReadings : ∃ t, make capitalReadings readingsByGroup = .ok t ∧
    ([] : List Scalar).length < t.depth ∧ t.Fitting [] ∧
      t.pathQuery [] = .error (.build (.columnExists "_path0")) := by
  refine ⟨_, rfl, by decide, ?_, rfl⟩
  simp [Fitting]

end PivotTree

end Crosstab
