import Crosstab.Proofs.Meaning.Order
import Crosstab.Proofs.Pivot.Nodes

/-!
# Base rows below a node

Which base rows the filter of a path keeps. The condition for a pivot value is met by values that
are the same together, so the groups among the rows that are kept are groups of all base rows, with
all their rows.
-/

namespace Crosstab

variable {V : Type} {E : Engine V} {db : Tables V}

/-- A value meets the condition for a pivot value of a column type. -/
def Engine.meets (E : Engine V) (type : DataType) (value : Scalar) (v : V) : Bool :=
  match value.coerce type with
  | .ok .null => E.same v E.null
  | .ok w => E.same v (E.constant w) && !E.same v E.null
  | .error _ => false

theorem Engine.same_congr (lawful : E.Lawful) {a b : V} (h : E.same a b = true) (c : V) :
    E.same a c = E.same b c := by
  rw [Bool.eq_iff_iff]
  constructor
  · intro ha
    exact lawful.same_trans _ _ _ (lawful.same_symm _ _ h) ha
  · intro hb
    exact lawful.same_trans _ _ _ h hb

/-- Values that are the same meet the same conditions. -/
theorem Engine.meets_congr (lawful : E.Lawful) {a b : V} (h : E.same a b = true) (type : DataType)
    (value : Scalar) : E.meets type value a = E.meets type value b := by
  unfold Engine.meets
  split
  · rw [E.same_congr lawful h]
  · rw [E.same_congr lawful h, E.same_congr lawful h]
  · rfl

theorem Engine.meets_of_coerce {value w : Scalar} {type : DataType}
    (h : value.coerce type = .ok w) (some : w ≠ .null) (v : V) :
    E.meets type value v = (E.same v (E.constant w) && !E.same v E.null) := by
  unfold Engine.meets
  rw [h]
  cases w with
  | null => exact absurd rfl some
  | _ => rfl

/-- A scalar is null, or a value of a type that an engine stores. -/
def Scalar.Fits (type : DataType) (value : Scalar) : Prop :=
  value = .null ∨ (value.type? = some type ∧ value ≠ .real .nan)

theorem Scalar.coerce_of_type {value : Scalar} {type : DataType} (h : value.type? = some type) :
    value.coerce type = .ok value := by
  cases value <;> cases h <;> rfl

/-- What meets the condition for a value of the column's own type is that value. -/
theorem Engine.meets_of_fits (comparing : E.Comparing) {type : DataType} {value : Scalar}
    (fits : value.Fits type) (v : V) : E.meets type value v = E.same v (E.constant value) := by
  obtain rfl | ⟨typed, real⟩ := fits
  · rfl
  · have some : value ≠ .null := by
      rintro rfl
      cases typed
    rw [E.meets_of_coerce (Scalar.coerce_of_type typed) some]
    by_cases own : E.same v (E.constant value) = true
    · have notNull := comparing.constant_not_null value ⟨some, real⟩
      rw [own, E.same_congr comparing.toLawful own, notNull]
      rfl
    · rw [Bool.eq_false_iff.2 own, Bool.false_and]

theorem Scalar.declared_of_type {value : Scalar} {type : DataType} (h : value.type? = some type) :
    value.declared type = value := by
  cases value <;> cases h <;> rfl

namespace PivotTree

variable {t : PivotTree}

/-- The condition that is written for a pivot value says what it is to say. -/
theorem isTrue_pathCondition (comparing : E.Comparing) (s : Schema) {pivot : Column}
    {value : Scalar} {e : Expr} (h : pathCondition pivot value = .ok e) (number : List SortKey → V)
    (row : List V) : E.isTrue (e.value E s number row) =
      E.meets pivot.type value (E.cell s.ids row pivot.id) := by
  unfold pathCondition at h
  split at h
  · next null =>
    cases h
    rw [Engine.meets, null]
    exact comparing.isNull_true _
  · next v some coerced =>
    obtain ⟨constant, hc, rfl⟩ := map_eq_ok_iff.1 h
    obtain ⟨-, -, rfl⟩ := map_eq_ok_iff.1 hc
    have typed := (type_of_coerce coerced).resolve_left some
    rw [E.meets_of_coerce coerced some, ← comparing.eq_true]
    simp only [Expr.value, Expr.values, Operation.apply, Scalar.declared_of_type typed]
  · next e bad =>
    cases h
    rw [Engine.meets, bad]
    exact comparing.false_not_true

/-! ## The rows below a path -/

/-- A base row meets the conditions for a path. -/
def below (E : Engine V) (t : PivotTree) (path : List Scalar) (row : List V) : Bool :=
  (t.pivots.zip path).all fun l => E.meets l.1.type l.2 (E.cell t.base.schema.ids row l.1.id)

theorem all_zip_pivots {α : Type} {path : List α} {f : Column × α → Bool} :
    (t.pivots.zip path).all f = true ↔
      ∀ l ∈ t.levels, ∀ v, path[l.1]? = some v → f (l.2, v) = true := by
  rw [List.all_eq_true]
  constructor
  · intro h l hl v hv
    refine h _ (List.mem_iff_getElem?.2 ⟨l.1, ?_⟩)
    exact List.getElem?_zip_eq_some.2 ⟨mem_levels.1 hl, hv⟩
  · intro h pair hp
    obtain ⟨i, hi⟩ := List.mem_iff_getElem?.1 hp
    obtain ⟨pivot, value⟩ := List.getElem?_zip_eq_some.1 hi
    exact h (i, pair.1) (mem_levels.2 pivot) pair.2 value

/-- The filter of a path keeps the base rows that meet its conditions. -/
theorem rows_filterPath (comparing : E.Comparing) (db : Tables V) {path : List Scalar} {q : Query}
    (short : path.length ≤ t.depth) (h : t.filterPath path = .ok q) :
    q.schema = t.base.schema ∧ q.rows E db = (t.base.rows E db).filter (t.below E path) := by
  unfold filterPath at h
  split at h
  · next none =>
    cases h
    refine ⟨rfl, (List.filter_eq_self.2 fun row _ => ?_).symm⟩
    rw [below, none, List.zip_nil_right]
    rfl
  · next some =>
    obtain ⟨conditions, each, h⟩ := bind_eq_ok_iff.1 h
    have each := mapM_eq_ok_iff.1 (mapError_eq_ok_iff.1 each)
    obtain ⟨checked, rfl⟩ := Query.filter_eq_ok_iff.1 h
    refine ⟨rfl, List.filter_congr fun row _ => ?_⟩
    have pos : 0 < path.length := List.length_pos_iff.2 some
    have len := each.length_eq
    rw [List.length_zip] at len
    have meets : (conditions.map fun e =>
        E.isTrue (e.value E t.base.schema (fun _ => E.null) row)) = (t.pivots.zip path).map
          fun l => E.meets l.1.type l.2 (E.cell t.base.schema.ids row l.1.id) := by
      refine (map_eq_map_of_forall₂ each fun l e he => ?_).symm
      exact (isTrue_pathCondition comparing _ he _ _).symm
    obtain _ | ⟨first, others⟩ := conditions
    · unfold depth at short
      rw [List.length_nil] at len
      omega
    · rw [Expr.value, Expr.values, Operation.apply, Engine.isTrue_foldl_and, below,
        Expr.values_eq_map, List.all_map]
      have all := congrArg (List.all · id) meets
      simpa [List.all_map, Function.comp_def] using all

/-! ## Groups -/

theorem sameRow_pivots {count : Nat} {a b : List V} :
    E.sameRow (t.base.schema.groupKeys E (t.pivotIds.take count) a)
        (t.base.schema.groupKeys E (t.pivotIds.take count) b) = true ↔
      ∀ l ∈ t.levels, l.1 < count →
        E.same (E.cell t.base.schema.ids a l.2.id) (E.cell t.base.schema.ids b l.2.id) = true := by
  rw [Schema.groupKeys, Schema.groupKeys, E.sameRow_map, List.all_eq_true]
  constructor
  · intro h l hl deep
    exact h _ (mem_take_pivotIds.2 ⟨l, hl, deep, rfl⟩)
  · intro h name hn
    obtain ⟨l, hl, deep, rfl⟩ := mem_take_pivotIds.1 hn
    exact h l hl deep

/-- Rows with the same pivot values down to the end of a path are below it together. -/
theorem below_together (lawful : E.Lawful) {path : List Scalar} {count : Nat}
    (long : path.length ≤ count) {a b : List V}
    (same : E.sameRow (t.base.schema.groupKeys E (t.pivotIds.take count) a)
      (t.base.schema.groupKeys E (t.pivotIds.take count) b) = true) :
    t.below E path a = t.below E path b := by
  rw [Bool.eq_iff_iff, below, below, all_zip_pivots, all_zip_pivots]
  refine forall₂_congr fun l hl => forall₂_congr fun v hv => ?_
  have deep := (List.getElem?_eq_some_iff.1 hv).1
  rw [E.meets_congr lawful (sameRow_pivots.1 same l hl (by omega))]

section
variable (comparing : E.Comparing) {path : List Scalar} {count : Nat}
  (pos : 0 < count) (long : path.length ≤ count) (deep : count ≤ t.depth)
include comparing pos long deep

/-- The groups among the rows below a node are groups of all base rows. -/
theorem mem_groups_of_below {members : List (List V)}
    (h : members ∈ t.base.schema.groups E (t.pivotIds.take count)
      ((t.base.rows E db).filter (t.below E path))) :
    members ∈ t.base.schema.groups E (t.pivotIds.take count) (t.base.rows E db) := by
  have lawful := comparing.toLawful
  refine t.base.schema.mem_groups_of_filter lawful (take_pivotIds_ne_nil pos deep) ?_ h
  intro a b same
  exact below_together lawful long same

/-- The groups among the rows below a node are nodes of the tree. -/
theorem exists_nodes (db : Tables V) {rows g : Query} (short : path.length ≤ t.depth)
    (filtered : t.filterPath path = .ok rows) (grouped : t.groupRows rows count = .ok g) :
    ∃ nodes, t.groupRows t.base count = .ok nodes ∧ nodes.schema = g.schema ∧
      ∀ row ∈ g.rows E db, row ∈ nodes.rows E db := by
  obtain ⟨same, kept⟩ := rows_filterPath comparing db short filtered
  have grouped : rows.groupBy (t.pivotIds.take count) (t.folded count) = .ok g := grouped
  obtain ⟨u, derived, eq⟩ := Query.groupBy_eq_ok_iff.1 grouped
  rw [same] at derived
  have all : t.base.groupBy (t.pivotIds.take count) (t.folded count) = .ok _ :=
    Query.groupBy_eq_ok_iff.2 ⟨u, derived, rfl⟩
  refine ⟨_, all, by rw [eq], fun row hrow => ?_⟩
  rw [Query.rows_groupBy grouped, same, kept] at hrow
  obtain ⟨members, hm, rfl⟩ := List.mem_map.1 hrow
  rw [Query.rows_groupBy all]
  exact List.mem_map_of_mem (mem_groups_of_below comparing pos long deep hm)

end

/-! ## Paths of values -/

/-- A base row has the values of a path in the pivot columns. -/
def hasPath (E : Engine V) (t : PivotTree) (path : List V) (row : List V) : Bool :=
  (t.pivots.zip path).all fun l => E.same (E.cell t.base.schema.ids row l.1.id) l.2

/-- The base rows that have the values of a path. -/
def rowsWith (E : Engine V) (db : Tables V) (t : PivotTree) (path : List V) : List (List V) :=
  (t.base.rows E db).filter (t.hasPath E path)

def Fitting (t : PivotTree) (path : List Scalar) : Prop :=
  ∀ l ∈ t.pivots.zip path, l.2.Fits l.1.type

theorem hasPath_iff {path row : List V} : t.hasPath E path row = true ↔
    ∀ l ∈ t.levels, ∀ v, path[l.1]? = some v →
      E.same (E.cell t.base.schema.ids row l.2.id) v = true := all_zip_pivots

/-- The rows that meet the conditions for a path of fitting values are those that have them. -/
theorem below_eq_hasPath (comparing : E.Comparing) {path : List Scalar} (fitting : t.Fitting path) :
    t.below E path = t.hasPath E (path.map E.constant) := by
  funext row
  rw [below, hasPath, List.zip_map_right, List.all_map, Bool.eq_iff_iff, List.all_eq_true,
    List.all_eq_true]
  refine forall₂_congr fun l hl => ?_
  rw [E.meets_of_fits comparing (fitting l hl)]
  rfl

theorem hasPath_append {path : List V} {pivot : Column} (next : t.pivots[path.length]? = some pivot)
    (v : V) (row : List V) : t.hasPath E (path ++ [v]) row =
      (t.hasPath E path row && E.same (E.cell t.base.schema.ids row pivot.id) v) := by
  rw [Bool.eq_iff_iff, Bool.and_eq_true, hasPath_iff, hasPath_iff]
  constructor
  · intro h
    constructor
    · intro l hl w hw
      refine h l hl w ?_
      rwa [List.getElem?_append_left (List.getElem?_eq_some_iff.1 hw).1]
    · exact h (path.length, pivot) (mem_levels.2 next) v (by simp)
  · rintro ⟨h, last⟩ l hl w hw
    by_cases above : l.1 < path.length
    · rw [List.getElem?_append_left above] at hw
      exact h l hl w hw
    · have here : l.1 = path.length := by
        have bound := (List.getElem?_eq_some_iff.1 hw).1
        rw [List.length_append, List.length_singleton] at bound
        omega
      have column := mem_levels.1 hl
      rw [here, next] at column
      rw [here, List.getElem?_concat_length] at hw
      rw [← Option.some.inj column, ← Option.some.inj hw]
      exact last

theorem rowsWith_append {path : List V} {pivot : Column}
    (next : t.pivots[path.length]? = some pivot) (v : V) : t.rowsWith E db (path ++ [v]) =
      (t.rowsWith E db path).filter fun row =>
        E.same (E.cell t.base.schema.ids row pivot.id) v := by
  rw [rowsWith, rowsWith, List.filter_filter]
  refine List.filter_congr fun row _ => ?_
  rw [hasPath_append next, Bool.and_comm]

/-- Paths with the same values are paths of the same rows. -/
theorem rowsWith_congr (lawful : E.Lawful) {path other : List V}
    (h : List.Forall₂ (fun v w => E.same v w = true) path other) :
    t.rowsWith E db path = t.rowsWith E db other := by
  have along {path other : List V} (h : List.Forall₂ (fun v w => E.same v w = true) path other)
      (row : List V) (has : t.hasPath E path row = true) : t.hasPath E other row = true := by
    rw [hasPath_iff] at has ⊢
    intro l hl w hw
    obtain ⟨bound, rfl⟩ := List.getElem?_eq_some_iff.1 hw
    have deep : l.1 < path.length := h.length_eq ▸ bound
    exact lawful.same_trans _ _ _ (has l hl _ (List.getElem?_eq_getElem deep)) (h.get deep bound)
  refine List.filter_congr fun row _ => Bool.eq_iff_iff.2 ⟨along h row, along ?_ row⟩
  exact h.flip.imp fun v w same => lawful.same_symm _ _ same

/-- Rows have the path of a row exactly if they have the same pivot values. -/
theorem sameRow_of_hasPath (lawful : E.Lawful) {path row : List V}
    (h : t.hasPath E path row = true) (other : List V) :
    E.sameRow (t.base.schema.groupKeys E (t.pivotIds.take path.length) row)
      (t.base.schema.groupKeys E (t.pivotIds.take path.length) other) =
        t.hasPath E path other := by
  rw [hasPath_iff] at h
  rw [Bool.eq_iff_iff, sameRow_pivots, hasPath_iff]
  constructor
  · intro same l hl v hv
    have deep := (List.getElem?_eq_some_iff.1 hv).1
    have back := lawful.same_symm _ _ (same l hl deep)
    exact lawful.same_trans _ _ _ back (h l hl v hv)
  · intro has l hl deep
    have hv := List.getElem?_eq_getElem deep
    have back := lawful.same_symm _ _ (has l hl _ hv)
    exact lawful.same_trans _ _ _ (h l hl _ hv) back

/-! ## The groups of the next level -/

/-- The value of a pivot that the rows of a group have in common. -/
def groupValue (E : Engine V) (t : PivotTree) (pivot : Column) (members : List (List V)) : V :=
  E.cell t.base.schema.ids (members.headD []) pivot.id

section
variable (lawful : E.Lawful) {path : List V} {pivot : Column}
  (next : t.pivots[path.length]? = some pivot) {members : List (List V)}
  (group : members ∈ t.base.schema.groups E (t.pivotIds.take (path.length + 1))
    (t.rowsWith E db path))
include next group

theorem head_mem_rowsWith : members.headD [] ∈ t.rowsWith E db path := by
  have deep : path.length < t.depth := (List.getElem?_eq_some_iff.1 next).1
  have grouped := take_pivotIds_ne_nil (Nat.succ_pos path.length) deep
  exact t.base.schema.head_mem_of_mem_groups E grouped group

include lawful

theorem head_hasPath :
    t.hasPath E (path ++ [t.groupValue E pivot members]) (members.headD []) = true := by
  have head := (List.mem_filter.1 (head_mem_rowsWith next group)).2
  rw [hasPath_append next, head]
  exact lawful.same_refl _

/-- Rows have the keys of a group exactly if they have the path of the group. -/
theorem sameRow_head (row : List V) : E.sameRow
    (t.base.schema.groupKeys E (t.pivotIds.take (path.length + 1)) (members.headD []))
    (t.base.schema.groupKeys E (t.pivotIds.take (path.length + 1)) row) =
      t.hasPath E (path ++ [t.groupValue E pivot members]) row := by
  have keys := sameRow_of_hasPath lawful (head_hasPath lawful next group) row
  rwa [List.length_append, List.length_singleton] at keys

/-- A group is all base rows that have its path. -/
theorem members_eq_rowsWith :
    members = t.rowsWith E db (path ++ [t.groupValue E pivot members]) := by
  have deep : path.length < t.depth := (List.getElem?_eq_some_iff.1 next).1
  have grouped := take_pivotIds_ne_nil (Nat.succ_pos path.length) deep
  conv_lhs => rw [t.base.schema.members_eq_filter lawful grouped group]
  rw [rowsWith_append next]
  refine List.filter_congr fun row hrow => ?_
  rw [sameRow_head lawful next group, hasPath_append next, (List.mem_filter.1 hrow).2,
    Bool.true_and]

end

section
variable (lawful : E.Lawful) {path : List V} {pivot : Column}
  (next : t.pivots[path.length]? = some pivot)
include lawful next

/-- Two groups stand for different values. -/
theorem groupValues_distinct (db : Tables V) : ((t.base.schema.groups E
    (t.pivotIds.take (path.length + 1)) (t.rowsWith E db path)).map (t.groupValue E pivot)).Pairwise
      fun v w => E.same v w = false := by
  have deep : path.length < t.depth := (List.getElem?_eq_some_iff.1 next).1
  have grouped := take_pivotIds_ne_nil (Nat.succ_pos path.length) deep
  rw [List.pairwise_map]
  refine (t.base.schema.groups_distinct grouped).imp_of_mem fun {a b} ha hb different => ?_
  have head := (List.mem_filter.1 (head_mem_rowsWith next hb)).2
  rw [sameRow_head lawful next ha, hasPath_append next, head, Bool.true_and] at different
  rw [← Bool.not_eq_true] at different ⊢
  intro same
  exact different (lawful.same_symm _ _ same)

/-- Every row has the value of a group. -/
theorem exists_groupValue {row : List V} (h : row ∈ t.rowsWith E db path) :
    ∃ v ∈ (t.base.schema.groups E (t.pivotIds.take (path.length + 1))
        (t.rowsWith E db path)).map (t.groupValue E pivot),
      E.same (E.cell t.base.schema.ids row pivot.id) v = true := by
  have deep : path.length < t.depth := (List.getElem?_eq_some_iff.1 next).1
  have grouped := take_pivotIds_ne_nil (Nat.succ_pos path.length) deep
  obtain ⟨members, hm, keys⟩ := t.base.schema.exists_group lawful grouped h
  rw [sameRow_head lawful next hm, hasPath_append next, Bool.and_eq_true] at keys
  exact ⟨_, List.mem_map_of_mem hm, keys.2⟩

end

end PivotTree

end Crosstab
