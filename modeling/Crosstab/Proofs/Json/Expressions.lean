import Crosstab.Proofs.Json.Parts

namespace Crosstab

open Json (Draft Fields Number)
open Json.Draft (ofJson)

/-! ## Real constants -/

def Scalar.reals : Scalar → List Double
  | real v => [v]
  | null | bool _ | int _ | text _ => []

mutual

def Expr.reals : Expr → List Double
  | const value _ => value.reals
  | combine _ operands => Expr.realsOf operands
  | column _ | rowNumber _ => []

def Expr.realsOf : List Expr → List Double
  | [] => []
  | e :: rest => Expr.reals e ++ Expr.realsOf rest

end

/-! ## Reading what was written -/

namespace Expr

def kind : Expr → Kind
  | column _ => .column
  | const _ _ => .const
  | combine _ _ => .combine
  | rowNumber _ => .rowNumber

def fields : Expr → List (String × Json)
  | column name => [("column", .string name)]
  | const value type => [("value", value.toJson), ("type", type.toJson)]
  | combine op operands => [("op", .string op.tag), ("operands", .array (toJsons operands))]
  | rowNumber keys => [("keys", .array (keys.map SortKey.toJson))]

theorem toJson_eq (e : Expr) :
    e.toJson = .object (("expType", .string e.kind.tag) :: e.fields) := by
  cases e <;> rfl

theorem tagged_toJson (e : Expr) (buffered : Bool) :
    (ofJson e.toJson).tagged buffered "expType" Kind.all Kind.tag =
      .ok (e.kind, ofJson (.object e.fields)) := by
  rw [toJson_eq]
  refine Draft.tagged_ofJson ?_ buffered ?_
  · cases e <;> rfl
  · cases e <;> simp [fields]

theorem toJsons_eq_map (es : List Expr) : toJsons es = es.map toJson := by
  induction es with
  | nil => rfl
  | cons e es ih => rw [toJsons, ih, List.map_cons]

theorem exists_levels {e : Expr} {levels : Nat} (deep : e.toJson.depth ≤ levels) :
    ∃ n, levels = n + 1 ∧ Json.depthFields e.fields ≤ n := by
  rw [toJson_eq, Json.depth, Json.depthFields, Json.depth] at deep
  exact ⟨levels - 1, by omega, by omega⟩

mutual

theorem ofDraft_toJson : ∀ (e : Expr) (levels : Nat) (buffered : Bool), e.toJson.depth ≤ levels →
    ofDraft levels buffered (ofJson e.toJson) = .ok e
  | column name, levels, buffered, deep => by
    obtain ⟨levels, rfl, -⟩ := exists_levels deep
    have read : (Fields.must "column" Draft.text .done).read
        (ofJson (.object (column name).fields)) = .ok (name, ()) :=
      Fields.read_of_writes _ (by simp [Fields.names]) ⟨_, _, rfl, rfl, rfl⟩
    exact bind_eq_ok_iff.2 ⟨_, tagged_toJson _ buffered, bind_eq_ok_iff.2 ⟨_, read, rfl⟩⟩
  | const value type, levels, buffered, deep => by
    obtain ⟨levels, rfl, -⟩ := exists_levels deep
    have read : (Fields.must "value" Scalar.ofDraft <|
        .must "type" (DataType.ofDraft true) .done).read
          (ofJson (.object (const value type).fields)) = .ok (value, type, ()) :=
      Fields.read_of_writes _ (by simp [Fields.names])
        ⟨_, _, rfl, value.ofDraft_toJson, _, _, rfl, type.ofDraft_toJson true, rfl⟩
    exact bind_eq_ok_iff.2 ⟨_, tagged_toJson _ buffered, bind_eq_ok_iff.2 ⟨_, read, rfl⟩⟩
  | combine op operands, levels, buffered, deep => by
    obtain ⟨levels, rfl, inside⟩ := exists_levels deep
    have list : Draft.listOf (ofDraft levels true) (ofJson (.array (toJsons operands))) =
        .ok operands := by
      rw [toJsons_eq_map]
      refine Draft.listOf_ofJson (ofDraft_toJsons operands levels ?_)
      simp [fields, Json.depthFields, Json.depth] at inside
      omega
    have tag : Draft.named true Operation.ofTag? (ofJson (.string op.tag)) = .ok op := by
      cases op <;> rfl
    have read : (Fields.must "op" (Draft.named true Operation.ofTag?) <|
        .must "operands" (Draft.listOf (ofDraft levels true)) .done).read
          (ofJson (.object (combine op operands).fields)) = .ok (op, operands, ()) :=
      Fields.read_of_writes _ (by simp [Fields.names])
        ⟨_, _, rfl, tag, _, _, rfl, list, rfl⟩
    exact bind_eq_ok_iff.2 ⟨_, tagged_toJson _ buffered, bind_eq_ok_iff.2 ⟨_, read, rfl⟩⟩
  | rowNumber keys, levels, buffered, deep => by
    obtain ⟨levels, rfl, -⟩ := exists_levels deep
    have read : (Fields.must "keys" (Draft.listOf SortKey.ofDraft) .done).read
        (ofJson (.object (rowNumber keys).fields)) = .ok (keys, ()) :=
      Fields.read_of_writes _ (by simp [Fields.names])
        ⟨_, _, rfl, Draft.listOf_ofJson fun k _ => k.ofDraft_toJson, rfl⟩
    exact bind_eq_ok_iff.2 ⟨_, tagged_toJson _ buffered, bind_eq_ok_iff.2 ⟨_, read, rfl⟩⟩

theorem ofDraft_toJsons : ∀ (es : List Expr) (levels : Nat),
    Json.depthItems (toJsons es) ≤ levels →
    ∀ e ∈ es, ofDraft levels true (ofJson e.toJson) = .ok e
  | [], _, _ => by simp
  | first :: es, levels, deep => by
    simp only [toJsons, Json.depthItems, Nat.max_le] at deep
    exact List.forall_mem_cons.2 ⟨ofDraft_toJson first levels true deep.1,
      ofDraft_toJsons es levels deep.2⟩

end

end Expr

/-! ## What was decoded -/

theorem whole_toInt (i : Int64) : Json.Whole i.toInt :=
  ⟨i.le_toInt, i.toInt_lt.trans (by decide)⟩

theorem Scalar.within_of_ofDraft {d : Draft} {v : Scalar} {n : Nat}
    (h : Scalar.ofDraft d = .ok v) (within : d.Within Number.Plain n) :
    (ofJson v.toJson).Within Number.Plain n := by
  obtain ⟨-, numbers⟩ := within
  match d with
  | .number (some (.int i)) =>
    cases h
    unfold ofInt
    split
    · exact ⟨rfl, whole_toInt _⟩
    · obtain ⟨low, high⟩ := numbers
      have wider : pow2 63 < pow2 64 := by decide
      exact ⟨rfl, Double.isFinite_ofInt (by omega)⟩
  | .number (some (.real v)) => cases h; exact ⟨rfl, numbers⟩
  | .null | .bool _ | .string (some _) => cases h; exact ⟨rfl, trivial⟩
  | .number none | .string none | .array _ | .object _ | .fault => cases h

namespace Expr

variable {P : Number → Prop} {n : Nat}

theorem within_toJson_iff (e : Expr) : (ofJson e.toJson).Within P n ↔
    0 < n ∧ ∀ f ∈ e.fields, (ofJson f.2).Within P (n - 1) := by
  rw [toJson_eq, Draft.within_fields, List.forall_mem_cons]
  simp [Draft.within_string]

theorem within_of_ofDraft {levels : Nat} {buffered : Bool} {d : Draft} {e : Expr}
    (h : ofDraft levels buffered d = .ok e) (within : d.Within Number.Plain n) :
    (ofJson e.toJson).Within Number.Plain n := by
  induction levels generalizing buffered d e n with
  | zero => cases h
  | succ levels ih =>
    obtain ⟨⟨kind, rest⟩, tagged, made⟩ := bind_eq_ok_iff.1 h
    have inside := Draft.within_of_tagged tagged within
    rw [within_toJson_iff]
    cases kind with
    | column =>
      obtain ⟨⟨name, ⟨⟩⟩, read, built⟩ := bind_eq_ok_iff.1 made
      cases built
      obtain ⟨pos, -⟩ := Fields.made_of_read _ read inside
      exact ⟨pos, by simp [fields, Draft.within_string]⟩
    | const =>
      obtain ⟨⟨value, type, ⟨⟩⟩, read, built⟩ := bind_eq_ok_iff.1 made
      cases built
      obtain ⟨pos, ⟨p, hp, decoded⟩, -⟩ := Fields.made_of_read _ read inside
      refine ⟨pos, ?_⟩
      simp [fields, DataType.toJson, Draft.within_string, Scalar.within_of_ofDraft decoded hp]
    | combine =>
      obtain ⟨⟨op, operands, ⟨⟩⟩, read, built⟩ := bind_eq_ok_iff.1 made
      cases built
      obtain ⟨pos, -, ⟨p, hp, decoded⟩, -⟩ := Fields.made_of_read _ read inside
      have list := Draft.within_of_listOf decoded hp ih
      exact ⟨pos, by simp [fields, toJsons_eq_map, Draft.within_string, list]⟩
    | rowNumber =>
      obtain ⟨⟨keys, ⟨⟩⟩, read, built⟩ := bind_eq_ok_iff.1 made
      cases built
      obtain ⟨pos, ⟨p, hp, decoded⟩, -⟩ := Fields.made_of_read _ read inside
      exact ⟨pos, by simp [fields, SortKey.within_of_listOf decoded hp]⟩

mutual

/-- The numbers of an expression are its integers and its real constants. -/
theorem numbers_toJson (ints : ∀ i : Int64, P (.int i.toInt)) : ∀ e : Expr,
    (ofJson e.toJson).Numbers P ↔ ∀ v ∈ e.reals, P (.real v)
  | column _ => by simp [toJson, reals]
  | const value type => by
    have scalar : (ofJson value.toJson).Numbers P ↔ ∀ v ∈ value.reals, P (.real v) := by
      cases value <;> simp [Scalar.toJson, Scalar.reals, ofJson, Draft.Numbers, ints]
    simp [toJson, DataType.toJson, reals, scalar]
  | combine op operands => by
    have list : (ofJson (.array (toJsons operands))).Numbers P ↔
        ∀ v ∈ realsOf operands, P (.real v) := numbers_toJsons ints operands
    rw [toJson, Draft.numbers_ofJson_object]
    simp [list, reals]
  | rowNumber keys => by simp [toJson, reals, SortKey.numbers_toJson]

theorem numbers_toJsons (ints : ∀ i : Int64, P (.int i.toInt)) : ∀ es : List Expr,
    Draft.NumbersItems P (Draft.ofJsons (toJsons es)) ↔ ∀ v ∈ realsOf es, P (.real v)
  | [] => by simp [toJsons, Draft.ofJsons, Draft.NumbersItems, realsOf]
  | e :: es => by
    simp [toJsons, Draft.ofJsons, Draft.NumbersItems, realsOf, numbers_toJson ints e,
      numbers_toJsons ints es, or_imp, forall_and]

end

end Expr

end Crosstab
