import Crosstab.Proofs.Meaning.Exact
import Crosstab.Proofs.Pivot.Expansion
import Crosstab.Proofs.Double.Literal
import Crosstab.Proofs.Double.Signs
import Crosstab.Proofs.Text.Trim

/-!
# Which node a path names

Nodes are told apart by values, open paths by texts. A text that is not how its value is displayed
may name a node that another path names as well: `7` and `07` are one integer. Among keys that are
displayed values, different keys are different values.
-/

namespace Crosstab

/-! ## Displayed values are read back -/

namespace Scalar

/-- A real is read back from what is displayed. -/
theorem read?_displayReal (v : Double) :
    Double.read? (Text.trim (displayReal v).toList) = some v := by
  have written (layout : RealLayout) (finite : v.isFinite = true) :
      Double.read? (Text.trim (layout.write v).toList) = some v := by
    rw [Text.trim_of_numeric (Double.all_isNumeric_write layout finite),
      Double.read?_write layout finite]
  cases v with
  | nan => decide
  | infinity negative => cases negative <;> decide
  | finite negative m e canonical =>
    unfold displayReal
    split
    · split <;> exact written _ rfl
    · exact written _ rfl

end Scalar

namespace PathKey

/-- The key of a value names this value in a column of its type. -/
theorem coerce_ofScalar {value : Scalar} {type : DataType}
    (typed : value = .null ∨ value.type? = some type) :
    (ofScalar value).toScalar.coerce type = .ok value := by
  obtain rfl | typed := typed
  · rfl
  cases value with
  | null => cases typed
  | text s =>
    cases typed
    rfl
  | bool b =>
    cases typed
    cases b <;> decide
  | int i =>
    cases typed
    show Scalar.coerceText (toString i.toInt) .integer = _
    simp only [Scalar.coerceText, Text.trim_of_numeric (all_isNumeric_toString i.toInt),
      readInt64?_toString]
  | real v =>
    cases typed
    show Scalar.coerceText (Scalar.displayReal v) .real = _
    simp only [Scalar.coerceText, Scalar.read?_displayReal]

/-- The key is that of a value of the column type, of null or of a number that is not below zero by
its sign alone. -/
def Own (type : DataType) (key : PathKey) : Prop :=
  ∃ value : Scalar, (value = .null ∨ value.type? = some type) ∧ value ≠ .real (.zero true) ∧
    key = ofScalar value

/-- Every text is the key of itself. -/
theorem own_text (key : PathKey) : key.Own .text := by
  cases key with
  | none => exact ⟨.null, .inl rfl, nofun, rfl⟩
  | some s => exact ⟨.text s, .inr rfl, nofun, rfl⟩

/-- Different keys of their own are those of different values. -/
theorem Own.distinct {type : DataType} {a b : PathKey} (ha : a.Own type) (hb : b.Own type)
    (ne : a ≠ b) : ∃ v w, a.toScalar.coerce type = .ok v ∧ b.toScalar.coerce type = .ok w ∧
      v ≠ w ∧ v.equals w = false := by
  obtain ⟨v, typed, signed, rfl⟩ := ha
  obtain ⟨w, typed', signed', rfl⟩ := hb
  have differ : v ≠ w := fun same => ne (congrArg ofScalar same)
  refine ⟨v, w, coerce_ofScalar typed, coerce_ofScalar typed', differ, ?_⟩
  exact Bool.eq_false_iff.2 fun same => differ (Scalar.eq_of_equals same signed signed')

end PathKey

/-- Constants of one type that are the same are one value, or equal as numbers. -/
def Engine.Faithful {V : Type} (E : Engine V) : Prop :=
  ∀ v w : Scalar, v.type? = w.type? → E.same (E.constant v) (E.constant w) = true →
    v = w ∨ v.equals w = true

/-- No value meets the conditions for two different values. -/
theorem Engine.meets_eq_false {V : Type} {E : Engine V} (lawful : E.Lawful) (faithful : E.Faithful)
    {type : DataType} {x y v w : Scalar} (hv : x.coerce type = .ok v) (hw : y.coerce type = .ok w)
    (ne : v ≠ w) (unequal : v.equals w = false) {c : V} (h : E.meets type x c = true) :
    E.meets type y c = false := by
  by_cases null : v = .null
  · subst null
    have isNull : E.same c E.null = true := by rwa [Engine.meets, hv] at h
    rw [E.meets_of_coerce hw ne.symm, isNull, Bool.not_true, Bool.and_false]
  · rw [E.meets_of_coerce hv null, Bool.and_eq_true, Bool.not_eq_true'] at h
    by_cases null' : w = .null
    · subst null'
      rw [Engine.meets, hw]
      exact h.2
    · rw [E.meets_of_coerce hw null', h.2, Bool.not_false, Bool.and_true]
      refine Bool.eq_false_iff.2 fun same => ?_
      have types : v.type? = w.type? :=
        ((type_of_coerce hv).resolve_left null).trans ((type_of_coerce hw).resolve_left null').symm
      have constants := lawful.same_trans _ _ _ (lawful.same_symm _ _ h.1) same
      obtain equal | equal := faithful v w types constants
      · exact ne equal
      · rw [unequal] at equal
        cases equal

theorem unbounded_faithful : unbounded.Faithful := by
  intro v w types same
  have data := same_unbounded.1 same
  refine .inl ?_
  cases v <;> cases w <;> cases types
  · rfl
  · next a b => cases a <;> cases b <;> first | rfl | cases data
  · next a b => exact congrArg Scalar.int (Int64.toInt_inj.1 (Datum.int.inj data))
  · next a b => exact congrArg Scalar.real (Datum.real.inj data)
  · next a b => exact congrArg Scalar.text (Datum.text.inj data)

namespace PivotTree

variable {V : Type} {t : PivotTree} {p q : List PathKey}

/-- At some level the paths look for different values. -/
def Differ (t : PivotTree) (p q : List PathKey) : Prop :=
  ∃ l ∈ t.levels, ∃ a b v w, p[l.1]? = some a ∧ q[l.1]? = some b ∧
    a.toScalar.coerce l.2.type = .ok v ∧ b.toScalar.coerce l.2.type = .ok w ∧
      v ≠ w ∧ v.equals w = false

/-- Different paths of the same length part at some level. -/
theorem exists_level_of_ne (short : p.length ≤ t.depth) (len : p.length = q.length) (ne : p ≠ q) :
    ∃ l ∈ t.levels, ∃ a b, p[l.1]? = some a ∧ q[l.1]? = some b ∧ a ≠ b := by
  obtain ⟨i, hi⟩ : ∃ i, p[i]? ≠ q[i]? := by
    by_contra same
    exact ne (List.ext_getElem? fun i => not_not.1 (not_exists.1 same i))
  have below : i < p.length := by
    by_contra above
    rw [List.getElem?_eq_none (by omega), List.getElem?_eq_none (by omega)] at hi
    exact hi rfl
  obtain ⟨l, hl, rfl⟩ := exists_level (Nat.lt_of_lt_of_le below short)
  have ha := List.getElem?_eq_getElem below
  have hb := List.getElem?_eq_getElem (len ▸ below)
  refine ⟨l, hl, _, _, ha, hb, fun same => hi ?_⟩
  rw [ha, hb, same]

/-- No base row is below two paths that look for different values. -/
theorem below_eq_false_of_differ {E : Engine V} (lawful : E.Lawful) (faithful : E.Faithful)
    (differ : t.Differ p q) {row : List V} (h : t.below E (p.map PathKey.toScalar) row = true) :
    t.below E (q.map PathKey.toScalar) row = false := by
  obtain ⟨l, hl, a, b, v, w, ha, hb, hv, hw, ne, unequal⟩ := differ
  refine Bool.eq_false_iff.2 fun both => ?_
  have first := all_zip_pivots.1 h l hl a.toScalar (by rw [List.getElem?_map, ha]; rfl)
  have second := all_zip_pivots.1 both l hl b.toScalar (by rw [List.getElem?_map, hb]; rfl)
  rw [Engine.meets_eq_false lawful faithful hv hw ne unequal first] at second
  cases second

/-- Two expanded paths of the same length look for different values at some level, and then no base
row is below both; or else they have different keys for one value at some level, or a key for no
value. Such a key is not that of its value. -/
theorem expandedPaths_distinct (t : PivotTree) (openPaths : OpenPaths) (expandRoot : Bool) :
    (t.expandedPaths openPaths expandRoot).Nodup ∧
    ∀ p ∈ t.expandedPaths openPaths expandRoot, ∀ q ∈ t.expandedPaths openPaths expandRoot,
      p.length = q.length → p ≠ q →
      (t.Differ p q ∧ ∀ {V : Type} (E : Engine V), E.Lawful → E.Faithful → ∀ row,
        t.below E (p.map PathKey.toScalar) row = true →
          t.below E (q.map PathKey.toScalar) row = false) ∨
      ∃ l ∈ t.levels, l.2.type ≠ .text ∧ ∃ a b, p[l.1]? = some a ∧ q[l.1]? = some b ∧ a ≠ b ∧
        (∀ v w, a.toScalar.coerce l.2.type = .ok v → b.toScalar.coerce l.2.type = .ok w →
          v = w ∨ v.equals w = true) ∧
        ¬ (a.Own l.2.type ∧ b.Own l.2.type) := by
  refine ⟨t.nodup_expandedPaths openPaths expandRoot, fun p hp q hq len ne => ?_⟩
  by_cases differ : t.Differ p q
  · exact .inl ⟨differ, fun E lawful faithful row => below_eq_false_of_differ lawful faithful differ⟩
  obtain ⟨l, hl, a, b, ha, hb, apart⟩ :=
    exists_level_of_ne (length_le_of_mem_expandedPaths hp) len ne
  have spelled (own : a.Own l.2.type ∧ b.Own l.2.type) : False := by
    obtain ⟨v, w, hv, hw, unequal⟩ := own.1.distinct own.2 apart
    exact differ ⟨l, hl, a, b, v, w, ha, hb, hv, hw, unequal⟩
  refine .inr ⟨l, hl, fun text => ?_, a, b, ha, hb, apart, fun v w hv hw => ?_, spelled⟩
  · rw [text] at spelled
    exact spelled ⟨a.own_text, b.own_text⟩
  · by_contra unequal
    rw [not_or, Bool.not_eq_true] at unequal
    exact differ ⟨l, hl, a, b, v, w, ha, hb, hv, hw, unequal⟩

def byProduct : PivotSpec := { PivotSpec.default with pivotColumns := ["product"] }

def openProducts (first second : String) : OpenPaths :=
  (OpenPaths.empty.openPath [some first]).openPath [some second]

theorem expandedPaths_distinct_productSales : unbounded.Faithful ∧
    ∃ t, make productSales byProduct = .ok t ∧
      [some "7"] ∈ t.expandedPaths (openProducts "7" "8") true ∧
      [some "8"] ∈ t.expandedPaths (openProducts "7" "8") true ∧
      t.Differ [some "7"] [some "8"] ∧ ∀ row, t.below unbounded [.text "7"] row = true →
        t.below unbounded [.text "8"] row = false := by
  obtain ⟨t, made, levels, seven, eight⟩ : ∃ t, make productSales byProduct = .ok t ∧
      t.levels = [(0, .named "product" .integer)] ∧
      [some "7"] ∈ t.expandedPaths (openProducts "7" "8") true ∧
      [some "8"] ∈ t.expandedPaths (openProducts "7" "8") true :=
    ⟨_, rfl, rfl, by decide, by decide⟩
  have own (i : Int64) (s : String) (shown : toString i.toInt = s) :
      PathKey.Own .integer (some s) := ⟨.int i, .inr rfl, nofun, congrArg some shown.symm⟩
  obtain ⟨differ, rows⟩ | ⟨l, hl, -, a, b, ha, hb, -, -, foreign⟩ :=
    (t.expandedPaths_distinct (openProducts "7" "8") true).2 _ seven _ eight rfl (by decide)
  · exact ⟨unbounded_faithful, t, made, seven, eight, differ,
      rows unbounded unbounded_lawful unbounded_faithful⟩
  · rw [levels, List.mem_singleton] at hl
    subst hl
    cases ha
    cases hb
    exact absurd ⟨own 7 "7" rfl, own 8 "8" rfl⟩ foreign

/-- One product is expanded under two spellings. -/
theorem expandedPaths_not_distinct_productSales : ∃ t, make productSales byProduct = .ok t ∧
    ∃ p ∈ t.expandedPaths (openProducts "7" "07") true,
      ∃ q ∈ t.expandedPaths (openProducts "7" "07") true, p.length = q.length ∧ p ≠ q ∧
        (∀ l ∈ t.levels, ∃ a b v, p[l.1]? = some a ∧ q[l.1]? = some b ∧
          a.toScalar.coerce l.2.type = .ok v ∧ b.toScalar.coerce l.2.type = .ok v) ∧
        ¬ t.Differ p q := by
  obtain ⟨t, made, levels, plain, zero⟩ : ∃ t, make productSales byProduct = .ok t ∧
      t.levels = [(0, .named "product" .integer)] ∧
      [some "7"] ∈ t.expandedPaths (openProducts "7" "07") true ∧
      [some "07"] ∈ t.expandedPaths (openProducts "7" "07") true :=
    ⟨_, rfl, rfl, by decide, by decide⟩
  refine ⟨t, made, _, plain, _, zero, rfl, by decide, ?_, ?_⟩
  · rw [levels]
    exact List.forall_mem_singleton.2 ⟨some "7", some "07", .int 7, rfl, rfl, rfl, rfl⟩
  · rintro ⟨l, hl, a, b, v, w, ha, hb, hv, hw, ne, -⟩
    rw [levels, List.mem_singleton] at hl
    subst hl
    cases ha
    cases hb
    cases hv
    cases hw
    exact ne rfl

end PivotTree

end Crosstab
