import Crosstab.Proofs.Pivot.Identity
import Crosstab.Proofs.Pivot.Opening

/-!
# Nodes opened by their values

A node is opened under the keys of the values on the path to it, and its children are looked for
under the values that these keys are read back as. Both name one node: reading a key in a column of
the value's type gives the value again.
-/

namespace Crosstab

namespace PathKey

variable {type : DataType} {v w : Scalar}

/-- Values of a column with one key are one value. -/
theorem ofScalar_inj (hv : v = .null ∨ v.type? = some type) (hw : w = .null ∨ w.type? = some type)
    (same : ofScalar v = ofScalar w) : v = w := by
  have first := coerce_ofScalar hv
  rw [same, coerce_ofScalar hw] at first
  exact (Except.ok.inj first).symm

end PathKey

namespace PivotTree

variable {t : PivotTree} {pivot : Column} {value other : Scalar} {path : List Scalar}

/-- The condition on a column looks at a value only as far as it is read in that column. -/
theorem pathCondition_congr (same : value.coerce pivot.type = other.coerce pivot.type) :
    pathCondition pivot value = pathCondition pivot other := by
  unfold pathCondition
  rw [same]

/-- The key of a value of the column gives the condition for that value. -/
theorem pathCondition_ofScalar (typed : value = .null ∨ value.type? = some pivot.type) :
    pathCondition pivot (PathKey.ofScalar value).toScalar = pathCondition pivot value := by
  apply pathCondition_congr
  rw [PathKey.coerce_ofScalar typed]
  obtain rfl | typed := typed
  · rfl
  · exact (Scalar.coerce_of_type typed).symm

/-- A path of values is no longer than the tree is deep, and each value is null or of the type of
its pivot column. -/
def Typed (t : PivotTree) (path : List Scalar) : Prop :=
  path.length ≤ t.depth ∧
    ∀ level ∈ t.pivots.zip path, level.2 = .null ∨ level.2.type? = some level.1.type

theorem mapM_pathCondition_valuePath {pivots : List Column}
    (typed : ∀ level ∈ pivots.zip path, level.2 = .null ∨ level.2.type? = some level.1.type) :
    ((pivots.zip ((valuePath path).map PathKey.toScalar)).mapM fun (pivot, value) =>
        pathCondition pivot value) =
      (pivots.zip path).mapM fun (pivot, value) => pathCondition pivot value := by
  induction pivots generalizing path with
  | nil => rfl
  | cons pivot pivots ih =>
    cases path with
    | nil => rfl
    | cons value path =>
      have here := pathCondition_ofScalar (typed _ List.mem_cons_self)
      have below := ih fun level mem => typed level (List.mem_cons_of_mem _ mem)
      simp only [valuePath, List.map_cons, List.zip_cons_cons, List.mapM_cons] at below ⊢
      rw [here, below]

theorem filterPath_valuePath (typed : t.Typed path) :
    t.filterPath ((valuePath path).map PathKey.toScalar) = t.filterPath path := by
  unfold filterPath
  by_cases root : path = []
  · subst root
    rfl
  · have keys : (valuePath path).map PathKey.toScalar ≠ [] := by simpa [valuePath] using root
    rw [if_neg root, if_neg keys, mapM_pathCondition_valuePath typed.2]

/-- Paths of values with the same keys are one path. -/
theorem Typed.eq_of_valuePath {others : List Scalar} (typed : t.Typed path)
    (typed' : t.Typed others) (same : valuePath others = valuePath path) : others = path := by
  have length : others.length = path.length := by simpa [valuePath] using congrArg List.length same
  apply List.ext_getElem length
  intro i here there
  have pivot : i < t.pivots.length := Nat.lt_of_lt_of_le there typed.1
  have level (values : List Scalar) (typed : t.Typed values) (h : i < values.length) :
      values[i] = .null ∨ values[i].type? = some t.pivots[i].type := by
    refine typed.2 (t.pivots[i], values[i]) (List.mem_iff_getElem.2 ⟨i, ?_, ?_⟩)
    · rw [List.length_zip]
      omega
    · exact List.getElem_zip
  apply PathKey.ofScalar_inj (level others typed' here) (level path typed there)
  have keys := congrArg (·[i]?) same
  simpa [valuePath, here, there] using keys

/-- Opening a node by its values shows the children of that node: the path is expanded under the
keys of the values, the values read back from these keys lead to the same query or the same error,
and no other values of the pivot columns have these keys. -/
theorem pathQuery_valuePath (t : PivotTree) (path : List Scalar) (typed : t.Typed path) :
    t.pathQuery ((valuePath path).map PathKey.toScalar) = t.pathQuery path ∧
    (path ≠ [] → ∀ (openPaths : OpenPaths) (expandRoot : Bool),
      valuePath path ∈ t.expandedPaths (openPaths.openPath (valuePath path)) expandRoot) ∧
    (∀ others, t.Typed others → valuePath others = valuePath path → others = path) ∧
    ∀ pivot ∈ t.pivots, ∀ v w : Scalar, (v = .null ∨ v.type? = some pivot.type) →
      (w = .null ∨ w.type? = some pivot.type) → v ≠ w → PathKey.ofScalar v ≠ PathKey.ofScalar w := by
  have length : (valuePath path).length = path.length := List.length_map _
  refine ⟨?_, fun nonempty openPaths expandRoot => ?_, fun others typed' same => ?_, ?_⟩
  · unfold pathQuery
    rw [filterPath_valuePath typed, List.length_map, length]
  · have keys : valuePath path ≠ [] := by simpa [valuePath] using nonempty
    have isOpen : (openPaths.openPath (valuePath path)).isOpen (valuePath path) = true :=
      OpenPaths.isOpen_openPath.2 (.inl ⟨keys, List.prefix_rfl⟩)
    apply mem_expandedPaths_iff.2
    refine ⟨.inr (.inl ?_), .inr ⟨length ▸ typed.1, isOpen⟩⟩
    intro none
    rw [none] at isOpen
    exact keys (Forest.find?_leaf.1 (OpenPaths.isOpen_eq_true_iff.1 isOpen).2)
  · exact typed.eq_of_valuePath typed' same
  · intro pivot _ v w hv hw ne same
    exact ne (PathKey.ofScalar_inj hv hw same)

def soundings : Query where
  schema := ⟨[.named "station" .text, .named "depth" .integer, .named "salinity" .real,
    .named "checked" .boolean], by decide, by decide⟩
  plan := .table "stations" _ (by decide)

def byEverything : PivotSpec :=
  { PivotSpec.default with pivotColumns := ["station", "depth", "salinity", "checked"] }

/-- A station that is called like null, the least depth, the zero below zero, unchecked. -/
def outermostSounding : List Scalar :=
  [.text "NULL", .int Int64.minValue, .real (.zero true), .null]

theorem pathQuery_valuePath_soundings : ∃ t, make soundings byEverything = .ok t ∧
    t.Typed outermostSounding ∧
    valuePath outermostSounding = [some "NULL", some "-9223372036854775808", some "-0.0", none] ∧
    t.pathQuery [.text "NULL", .text "-9223372036854775808", .text "-0.0", .null] =
      t.pathQuery outermostSounding ∧
    PathKey.ofScalar (.text "NULL") ≠ PathKey.ofScalar .null := by
  obtain ⟨t, made, pivots⟩ : ∃ t, make soundings byEverything = .ok t ∧
      t.pivots = soundings.schema.columns := ⟨_, rfl, rfl⟩
  have typed : t.Typed outermostSounding := by
    rw [Typed, depth, pivots]
    decide
  obtain ⟨same, -, -, distinct⟩ := t.pathQuery_valuePath outermostSounding typed
  have keys : valuePath outermostSounding =
    [some "NULL", some "-9223372036854775808", some "-0.0", none] := by decide +kernel
  rw [keys] at same
  have other : Scalar.text "NULL" ≠ .null := by simp
  have station : Column.named "station" .text ∈ t.pivots := pivots ▸ List.mem_cons_self
  exact ⟨t, made, typed, keys, same,
    distinct _ station (.text "NULL") .null (.inr rfl) (.inl rfl) other⟩

end PivotTree

end Crosstab
