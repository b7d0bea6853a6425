import Crosstab.Proofs.Naming
import Crosstab.Scalar.Coercion

namespace Crosstab

namespace Expr

attribute [local simp] type types

variable {s : Schema}

theorem type_column {name : String} {c : Column} (h : s.find? name = some c) :
    (column name).type s = .ok c.type := by
  simp [Schema.type?, h]

theorem has_of_type_column {name : String} {type : DataType}
    (h : (column name).type s = .ok type) : s.has name = true := by
  rw [Expr.type] at h
  split at h
  · next found =>
    obtain ⟨c, hc, -⟩ := Schema.type?_eq_some_iff.1 found
    simp [Schema.has, hc]
  · cases h

theorem type_null (s : Schema) (type : DataType) : (null type).type s = .ok type := rfl

theorem type_const {value : Scalar} {type : DataType} (h : checkConstant value type = .ok ()) :
    (const value type).type s = .ok type := by
  rw [Expr.type, h]

theorem types_eq_ok_iff {es : List Expr} {types : List DataType} :
    Expr.types s es = .ok types ↔ List.Forall₂ (fun e type => e.type s = .ok type) es types := by
  induction es generalizing types with
  | nil => cases types <;> simp
  | cons e es ih =>
    unfold Expr.types
    constructor
    · intro h
      split at h
      · cases h
      · next type ht =>
        obtain ⟨rest, hr, rfl⟩ := map_eq_ok_iff.1 h
        exact .cons ht (ih.1 hr)
    · rintro (_ | ⟨ht, hr⟩)
      rw [ht]
      exact map_eq_ok_iff.2 ⟨_, ih.2 hr, rfl⟩

theorem type_combine_eq_ok_iff {op : Operation} {operands : List Expr} {type : DataType} :
    (combine op operands).type s = .ok type ↔ ∃ types,
      List.Forall₂ (fun e type => e.type s = .ok type) operands types ∧
        combinedType op types = .ok type := by
  rw [Expr.type]
  constructor
  · intro h
    split at h
    · next types ht => exact ⟨types, types_eq_ok_iff.1 ht, mapError_eq_ok_iff.1 h⟩
    · cases h
  · rintro ⟨types, each, h⟩
    rw [types_eq_ok_iff.2 each]
    exact mapError_eq_ok_iff.2 h

theorem takes_of_combinedType {op : Operation} {types : List DataType} {type : DataType}
    (h : combinedType op types = .ok type) : op.takes types.length = true := by
  unfold combinedType at h
  split at h
  · assumption
  · cases h

/-- A rank needs keys, and all of them are columns. -/
theorem type_rowNumber {keys : List SortKey} (nonempty : keys ≠ [])
    (has : ∀ k ∈ keys, s.has k.column = true) : (rowNumber keys).type s = .ok .integer := by
  have none : keys.find? (fun k => !s.has k.column) = none := by
    rw [List.find?_eq_none]
    intro k hk
    simp [has k hk]
  simp [checkRowNumber, nonempty, none]

theorem has_of_type_rowNumber {keys : List SortKey} {type : DataType}
    (h : (rowNumber keys).type s = .ok type) : ∀ k ∈ keys, s.has k.column = true := by
  rw [Expr.type, checkRowNumber] at h
  split at h
  · next checked =>
    split at checked
    · cases checked
    · split at checked
      · cases checked
      · next none => simpa using none
  · cases h

theorem anyRowNumber_eq_false_iff {es : List Expr} :
    anyRowNumber es = false ↔ ∀ e ∈ es, e.hasRowNumber = false := by
  induction es with
  | nil => simp [anyRowNumber]
  | cons e es ih => rw [anyRowNumber, Bool.or_eq_false_iff, ih, List.forall_mem_cons]

/-- Truth values can be joined by a conjunction. -/
theorem type_and {conditions : List Expr} (nonempty : conditions ≠ [])
    (h : ∀ e ∈ conditions, e.type s = .ok .boolean) :
    (combine .and conditions).type s = .ok .boolean := by
  refine type_combine_eq_ok_iff.2 ⟨conditions.map fun _ => .boolean, ?_, ?_⟩
  · rw [List.forall₂_map_right_iff, List.forall₂_same]
    exact h
  · have takes : Operation.and.takes (conditions.map fun _ => DataType.boolean).length = true := by
      simpa [Operation.takes] using nonempty
    have none : (conditions.map fun _ => DataType.boolean).find? (· ≠ .boolean) = none := by simp
    rw [combinedType, if_pos takes]
    simp only [logicType, none]

end Expr

/-! ## Values taken to a type -/

theorem type_of_coerce {value v : Scalar} {type : DataType} (h : value.coerce type = .ok v) :
    v = .null ∨ v.type? = some type := by
  unfold Scalar.coerce Scalar.coerceReal Scalar.coerceText at h
  split at h
  all_goals try split at h
  all_goals try split at h
  all_goals cases h
  all_goals first | exact .inl rfl | exact .inr rfl

theorem checkConstant_of_coerce {value v : Scalar} {type : DataType}
    (h : value.coerce type = .ok v) : Expr.checkConstant v type = .ok () := by
  unfold Expr.checkConstant
  obtain rfl | own := type_of_coerce h
  · rfl
  · rw [own]
    exact if_pos (.inl rfl)

end Crosstab
