import Crosstab.Pivot.Tree
import Crosstab.Proofs.Query.Builders

namespace Crosstab

/-! ## Names -/

/-- The first characters of a name, by which the names that a tree adds can be told apart. -/
def nameTag (name : String) : List Char := (foldCase name).take 3

theorem nameTag_congr {a b : String} (h : SameName a b) : nameTag a = nameTag b :=
  congrArg (List.take 3) h

theorem not_sameName_of_nameTag {a b : String} (h : nameTag a ≠ nameTag b) : ¬ SameName a b :=
  fun same => h (nameTag_congr same)

theorem ne_empty_of_nameTag {name : String} (h : nameTag name ≠ []) : name ≠ "" := by
  rintro rfl
  exact h rfl

theorem nameTag_pathColumn (n : Nat) : nameTag (pathColumn n) = ['_', 'p', 'a'] := by
  rw [nameTag, pathColumn, foldCase_numbered]
  rfl

theorem nameTag_rankColumn (n : Nat) : nameTag (rankColumn n) = ['_', 's', 'o'] := by
  rw [nameTag, rankColumn, foldCase_numbered]
  rfl

theorem nameTag_levelColumn (n : Nat) : nameTag (levelColumn n) = ['_', 'i', 'n'] := by
  rw [nameTag, levelColumn, foldCase_numbered]
  rfl

theorem pathColumn_ne_empty (n : Nat) : pathColumn n ≠ "" :=
  ne_empty_of_nameTag (by rw [nameTag_pathColumn]; decide)

theorem rankColumn_ne_empty (n : Nat) : rankColumn n ≠ "" :=
  ne_empty_of_nameTag (by rw [nameTag_rankColumn]; decide)

theorem levelColumn_ne_empty (n : Nat) : levelColumn n ≠ "" :=
  ne_empty_of_nameTag (by rw [nameTag_levelColumn]; decide)

theorem not_sameName_path_rank {m n : Nat} : ¬ SameName (pathColumn m) (rankColumn n) :=
  not_sameName_of_nameTag (by rw [nameTag_pathColumn, nameTag_rankColumn]; decide)

theorem not_sameName_path_level {m n : Nat} : ¬ SameName (pathColumn m) (levelColumn n) :=
  not_sameName_of_nameTag (by rw [nameTag_pathColumn, nameTag_levelColumn]; decide)

theorem not_sameName_rank_level {m n : Nat} : ¬ SameName (rankColumn m) (levelColumn n) :=
  not_sameName_of_nameTag (by rw [nameTag_rankColumn, nameTag_levelColumn]; decide)

theorem sameName_pathColumn {m n : Nat} : SameName (pathColumn m) (pathColumn n) ↔ m = n :=
  sameName_numbered

theorem sameName_rankColumn {m n : Nat} : SameName (rankColumn m) (rankColumn n) ↔ m = n :=
  sameName_numbered

theorem sameName_levelColumn {m n : Nat} : SameName (levelColumn m) (levelColumn n) ↔ m = n :=
  sameName_numbered

def singleNames : List String := [recordColumn, depthColumn, labelColumn, rootColumn]

def numberedStems : List String := ["_path", "_sortVal_", "_inLevel_"]

/-- What is not reserved is none of the names that a tree gives once, in any case, and begins with
none of the stems as they are written. -/
theorem isReserved_eq_false_iff {id : String} :
    isReserved id = false ↔
      (∀ name ∈ singleNames, ¬ SameName id name) ∧
        ∀ stem ∈ numberedStems, beginsWith id stem = false := by
  simp [isReserved, singleNames, numberedStems, and_assoc]

/-- A name begins with a text, whatever the case of its letters. -/
def Begins (name start : String) : Prop := foldCase start <+: foldCase name

instance (name start : String) : Decidable (Begins name start) :=
  inferInstanceAs (Decidable (_ <+: _))

/-- No column of a schema has a name that begins like the numbered names of a tree. -/
def Schema.Unnumbered (s : Schema) : Prop :=
  ∀ c ∈ s.columns,
    ¬ Begins c.id "_path" ∧ ¬ Begins c.id "_sortVal_" ∧ ¬ Begins c.id "_inLevel_"

instance (s : Schema) : Decidable s.Unnumbered :=
  inferInstanceAs (Decidable (∀ c ∈ s.columns, _))

theorem begins_numbered {name stem : String} {n : Nat} (h : SameName name (stem ++ toString n)) :
    Begins name stem := by
  have folded : foldCase name = foldCase (stem ++ toString n) := h
  rw [Begins, folded, foldCase_numbered]
  exact List.prefix_append ..

/-- A name is none of those that a tree may add. -/
structure Apart (name : String) : Prop where
  depth : ¬ SameName name depthColumn
  label : ¬ SameName name labelColumn
  root : ¬ SameName name rootColumn
  path : ∀ n, ¬ SameName name (pathColumn n)
  rank : ∀ n, ¬ SameName name (rankColumn n)
  level : ∀ n, ¬ SameName name (levelColumn n)

theorem apart_of_unnumbered {s : Schema} (free : s.Unnumbered) {c : Column} (h : c ∈ s.columns)
    (reserved : isReserved c.id = false) : Apart c.id := by
  obtain ⟨path, rank, level⟩ := free c h
  obtain ⟨single, -⟩ := isReserved_eq_false_iff.1 reserved
  exact {
    depth := single _ (by simp [singleNames])
    label := single _ (by simp [singleNames])
    root := single _ (by simp [singleNames])
    path := fun n same => path (begins_numbered same)
    rank := fun n same => rank (begins_numbered same)
    level := fun n same => level (begins_numbered same) }

/-- The names that the tree gives once are none of the numbered ones. -/
theorem not_sameName_numbered {name : String} (h : name ∈ singleNames) (n : Nat) :
    ¬ SameName name (pathColumn n) ∧ ¬ SameName name (rankColumn n) ∧
      ¬ SameName name (levelColumn n) := by
  have tag : nameTag name ∉ [['_', 'p', 'a'], ['_', 's', 'o'], ['_', 'i', 'n']] := by
    simp only [singleNames, List.mem_cons, List.not_mem_nil, or_false] at h
    obtain rfl | rfl | rfl | rfl := h <;> decide
  refine ⟨not_sameName_of_nameTag fun same => tag ?_, not_sameName_of_nameTag fun same => tag ?_,
    not_sameName_of_nameTag fun same => tag ?_⟩
  · simp [same, nameTag_pathColumn]
  · simp [same, nameTag_rankColumn]
  · simp [same, nameTag_levelColumn]

theorem apart_recordColumn : Apart recordColumn where
  depth := by decide
  label := by decide
  root := by decide
  path n := (not_sameName_numbered List.mem_cons_self n).1
  rank n := (not_sameName_numbered List.mem_cons_self n).2.1
  level n := (not_sameName_numbered List.mem_cons_self n).2.2

/-! ## What a layout has been checked for -/

namespace PivotTree

theorem resolvePivots_spec {s : Schema} {found pivots : List Column} {names : List String}
    (h : resolvePivots s found names = .ok pivots) :
    (∀ p ∈ pivots, p ∈ s.columns) ∧ (∀ p ∈ pivots, ∀ f ∈ found, ¬ SameName f.id p.id) ∧
      pivots.Nodup ∧ List.Forall₂ (fun name p => s.find? name = some p) names pivots := by
  induction names generalizing found pivots with
  | nil => cases h; simp
  | cons name names ih =>
    unfold resolvePivots at h
    split at h
    · cases h
    · next c hc =>
      split at h
      · cases h
      · next new =>
        obtain ⟨rest, hr, rfl⟩ := map_eq_ok_iff.1 h
        obtain ⟨mem, apart, distinct, each⟩ := ih hr
        have newName : ∀ f ∈ found, ¬ SameName f.id c.id := by simpa using new
        refine ⟨?_, ?_, ?_, .cons hc each⟩
        · exact List.forall_mem_cons.2 ⟨(Schema.find?_eq_some_iff.1 hc).1, mem⟩
        · refine List.forall_mem_cons.2 ⟨newName, fun p hp f hf => ?_⟩
          exact apart p hp f (List.mem_cons_of_mem _ hf)
        · refine List.nodup_cons.2 ⟨fun hmem => ?_, distinct⟩
          exact apart c hmem c List.mem_cons_self (SameName.refl _)

/-- The aggregate of a base column and the type that it yields. -/
structure AggregateOf (t : PivotTree) (b : Column) (a : AggregateColumn) : Prop where
  column : a.column = b.id
  /-- The aggregate has a type; where raw values are shown too, it fits them. -/
  typed : ∃ output, a.func.outputType b.type = .ok output ∧
    ((t.spec.showLeafRows = true ∨ b ∈ t.pivots) → (output.widen b.type).isSome = true)

/-- What is checked when a tree is made. -/
structure Sound (t : PivotTree) : Prop where
  pivots_mem : ∀ p ∈ t.pivots, p ∈ t.base.schema.columns
  pivots_distinct : t.pivots.Nodup
  aggregates : List.Forall₂ (AggregateOf t) t.base.schema.columns t.aggregates
  sortKey : ∀ k ∈ t.spec.sortKey, t.base.schema.has k.column = true
  leaf : ∀ name ∈ t.spec.leafColumn, t.base.schema.has name = true
  record : Column.named recordColumn .integer ∈ t.base.schema.columns

/-- The steps of making a tree. -/
theorem make_eq_ok {base : Query} {spec : PivotSpec} {t : PivotTree}
    (h : make base spec = .ok t) :
    checkReserved base.schema = .ok () ∧
      resolvePivots base.schema [] spec.pivotColumns = .ok t.pivots ∧
      checkLeaf base.schema spec = .ok () ∧
      base.extend recordColumn .integer (.lit (.int 1)) = .ok t.base ∧
      checkNames t.base.schema spec = .ok () ∧
      t.base.schema.columns.mapM (aggregateOf spec t.pivots) = .ok t.aggregates ∧
      t.spec = spec := by
  obtain ⟨_, reserved, h⟩ := bind_eq_ok_iff.1 h
  obtain ⟨pivots, hp, h⟩ := bind_eq_ok_iff.1 h
  obtain ⟨_, leaf, h⟩ := bind_eq_ok_iff.1 h
  obtain ⟨extended, he, h⟩ := bind_eq_ok_iff.1 h
  obtain ⟨_, names, h⟩ := bind_eq_ok_iff.1 h
  obtain ⟨aggregates, ha, h⟩ := bind_eq_ok_iff.1 h
  rw [← pure_eq_ok_iff.1 h]
  exact ⟨mapError_eq_ok_iff.1 reserved, mapError_eq_ok_iff.1 hp, mapError_eq_ok_iff.1 leaf, he,
    mapError_eq_ok_iff.1 names, mapError_eq_ok_iff.1 ha, rfl⟩

theorem aggregateOf_eq_ok {spec : PivotSpec} {pivots : List Column} {c : Column}
    {a : AggregateColumn} (h : aggregateOf spec pivots c = .ok a) :
    a.column = c.id ∧ ∃ output, a.func.outputType c.type = .ok output ∧
      ((spec.showLeafRows = true ∨ c ∈ pivots) → (output.widen c.type).isSome = true) := by
  unfold aggregateOf at h
  obtain ⟨output, ho, h⟩ := bind_eq_ok_iff.1 h
  have fits (mixed : spec.showLeafRows = true ∨ c ∈ pivots) :
      (spec.showLeafRows || pivots.any (·.id == c.id)) = true := by
    obtain shown | pivot := mixed
    · rw [shown, Bool.true_or]
    · rw [Bool.or_eq_true, List.any_eq_true]
      exact .inr ⟨c, pivot, beq_self_eq_true _⟩
  dsimp only at h
  split at h
  · next bad => cases h
  · next good =>
    rw [← pure_eq_ok_iff.1 h]
    refine ⟨rfl, output, ho, fun mixed => ?_⟩
    exact Option.isSome_iff_ne_none.2 (by simpa [fits mixed] using good)

theorem sound_of_make {base : Query} {spec : PivotSpec} {t : PivotTree}
    (h : make base spec = .ok t) : t.Sound := by
  obtain ⟨-, pivots, leaf, extended, names, aggregates, layout⟩ := make_eq_ok h
  have sub (c : Column) (hc : c ∈ base.schema.columns) : c ∈ t.base.schema.columns :=
    Query.mem_extend extended hc
  obtain ⟨mem, -, distinct, -⟩ := resolvePivots_spec pivots
  exact {
    pivots_mem := fun p hp => sub p (mem p hp)
    pivots_distinct := distinct
    aggregates := by
      refine (mapM_eq_ok_iff.1 aggregates).imp fun b a ha => ?_
      obtain ⟨column, output, ho, fits⟩ := aggregateOf_eq_ok ha
      exact ⟨column, output, ho, layout ▸ fits⟩
    sortKey := by
      intro k hk
      unfold checkNames at names
      split at names
      · cases names
      · next none =>
        have := List.find?_eq_none.1 none k (layout ▸ hk)
        simpa using this
    leaf := by
      intro name hn
      rw [layout] at hn
      unfold checkLeaf at leaf
      rw [Option.mem_def.1 hn] at leaf
      dsimp only at leaf
      split at leaf
      · next has => exact Schema.has_of_subset sub name has
      · cases leaf
    record := by
      rw [Query.columns_extend extended]
      exact List.mem_append_right _ (List.mem_singleton.2 rfl) }

theorem isReserved_of_make {base : Query} {spec : PivotSpec} {t : PivotTree}
    (h : make base spec = .ok t) {c : Column} (hc : c ∈ base.schema.columns) :
    isReserved c.id = false := by
  obtain ⟨reserved, -⟩ := make_eq_ok h
  unfold checkReserved at reserved
  split at reserved
  · cases reserved
  · next none => simpa using List.find?_eq_none.1 none c.id (List.mem_map_of_mem hc)

/-- A column of the tree is a base column, whose name is not reserved, or the record counts. -/
theorem mem_columns_of_make {base : Query} {spec : PivotSpec} {t : PivotTree}
    (h : make base spec = .ok t) {c : Column} (hc : c ∈ t.base.schema.columns) :
    (c ∈ base.schema.columns ∧ isReserved c.id = false) ∨ c = .named recordColumn .integer := by
  obtain ⟨-, -, -, extended, -⟩ := make_eq_ok h
  rw [Query.columns_extend extended, List.mem_append, List.mem_singleton] at hc
  exact hc.imp_left fun hc => ⟨hc, isReserved_of_make h hc⟩

/-- The names that the tree adds are none of the base columns. -/
theorem apart_of_make {base : Query} {spec : PivotSpec} {t : PivotTree}
    (h : make base spec = .ok t) (free : base.schema.Unnumbered) :
    ∀ c ∈ t.base.schema.columns, Apart c.id := by
  intro c hc
  obtain ⟨hc, reserved⟩ | rfl := mem_columns_of_make h hc
  · exact apart_of_unnumbered free hc reserved
  · exact apart_recordColumn

/-- A name is none of those in the rows of a tree. -/
structure Free (t : PivotTree) (name : String) : Prop where
  depth : ¬ SameName name depthColumn
  label : ¬ SameName name labelColumn
  root : ¬ SameName name rootColumn
  path : ∀ n < t.depth, ¬ SameName name (pathColumn n)

theorem free_of_apart {t : PivotTree} {name : String} (h : Apart name) : t.Free name where
  depth := h.depth
  label := h.label
  root := h.root
  path n _ := h.path n

/-- Of the names in the rows, only those of the path columns may be among the base columns. -/
theorem free_of_make {base : Query} {spec : PivotSpec} {t : PivotTree}
    (h : make base spec = .ok t)
    (paths : ∀ c ∈ base.schema.columns, ∀ n < t.depth, ¬ SameName c.id (pathColumn n)) :
    ∀ c ∈ t.base.schema.columns, t.Free c.id := by
  intro c hc
  obtain ⟨hc, reserved⟩ | rfl := mem_columns_of_make h hc
  · obtain ⟨single, -⟩ := isReserved_eq_false_iff.1 reserved
    exact {
      depth := single _ (by simp [singleNames])
      label := single _ (by simp [singleNames])
      root := single _ (by simp [singleNames])
      path := paths c hc }
  · exact free_of_apart apart_recordColumn

end PivotTree

end Crosstab
