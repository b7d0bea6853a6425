import Crosstab.Proofs.Query.Typing

/-!
# What it means for an expression to have a type

A typing judgement with one rule for each kind of expression, beside the function that infers types
and stops at the first error.
-/

namespace Crosstab

/-! ## Names, constants and operations -/

/-- Exactly one column has the name. -/
def Schema.Resolves (s : Schema) (name : String) : Prop :=
  ∃ c, s.columns.filter (fun c => decide (SameName c.id name)) = [c]

/-- A name that means a column means no other. -/
theorem Schema.resolves_of_has {s : Schema} {name : String} (h : s.has name = true) :
    s.Resolves name := by
  obtain ⟨c, hc, same⟩ := has_iff.1 h
  refine ⟨c, ?_⟩
  have only : ∀ d ∈ s.columns, decide (SameName d.id name) = (d == c) := by
    intro d hd
    apply decide_eq_decide.2
    constructor
    · intro other
      exact eq_of_sameName hd hc (other.trans same.symm)
    · rintro rfl
      exact same
  have once : s.columns.count c = 1 := List.count_eq_one_of_mem s.ids_distinct.of_map hc
  rw [List.filter_congr only, List.filter_beq, once, List.replicate_one]

/-- A constant may be declared with a type: it is null, or has that type, or is an integer declared
as a real. -/
inductive Expr.Declarable : Scalar → DataType → Prop where
  | null (type : DataType) : Declarable .null type
  | own {value : Scalar} {type : DataType} (same : value.type? = some type) : Declarable value type
  | wider (i : Int64) : Declarable (.int i) .real

theorem Expr.declarable_iff {value : Scalar} {type : DataType} :
    Declarable value type ↔ checkConstant value type = .ok () := by
  constructor
  · rintro (_ | same | _)
    · rfl
    · simp [checkConstant, same]
    · rfl
  · intro checked
    unfold checkConstant at checked
    cases value with
    | null => exact .null type
    | int i =>
      simp only [Scalar.type?] at checked
      split at checked
      · next fits =>
        obtain rfl | ⟨-, rfl⟩ := fits
        · exact .own rfl
        · exact .wider i
      · cases checked
    | bool _ | real _ | text _ =>
      simp only [Scalar.type?] at checked
      split at checked
      · next fits =>
        obtain rfl | ⟨wrong, -⟩ := fits
        · exact .own rfl
        · cases wrong
      · cases checked

/-- An operation takes operands of the types, and gives a value of the last type. -/
inductive Operation.Accepts : Operation → List DataType → DataType → Prop where
  | and {types : List DataType} (nonempty : types ≠ []) (all : ∀ t ∈ types, t = .boolean) :
      Accepts .and types .boolean
  | or {types : List DataType} (nonempty : types ≠ []) (all : ∀ t ∈ types, t = .boolean) :
      Accepts .or types .boolean
  | not : Accepts .not [.boolean] .boolean
  | isNull (t : DataType) : Accepts .isNull [t] .boolean
  | isNotNull (t : DataType) : Accepts .isNotNull [t] .boolean
  | comparison {op : Operation} {l r : DataType} (compares : op.isComparison = true)
      (common : (l.widen r).isSome = true) : Accepts op [l, r] .boolean
  | arithmetic {op : Operation} {l r t : DataType} (calculates : op ∈ [.add, .sub, .mul, .div])
      (left : l.isNumeric = true) (right : r.isNumeric = true) (common : l.widen r = some t) :
      Accepts op [l, r] t

namespace Expr

theorem logicType_eq_ok_iff {op : Operation} {types : List DataType} {type : DataType} :
    logicType op types = .ok type ↔ (∀ t ∈ types, t = .boolean) ∧ type = .boolean := by
  unfold logicType
  split
  · next t found =>
    have mem := List.mem_of_find?_eq_some found
    have wrong : t ≠ .boolean := by simpa using List.find?_some found
    constructor
    · intro h
      cases h
    · rintro ⟨all, -⟩
      exact absurd (all t mem) wrong
  · next none =>
    have all : ∀ t ∈ types, t = .boolean := by simpa using none
    constructor
    · intro h
      cases h
      exact ⟨all, rfl⟩
    · rintro ⟨-, rfl⟩
      rfl

theorem comparisonType_eq_ok_iff {l r type : DataType} :
    comparisonType l r = .ok type ↔ (l.widen r).isSome = true ∧ type = .boolean := by
  unfold comparisonType
  cases l.widen r <;> simp [eq_comm]

theorem arithmeticType_eq_ok_iff {op : Operation} {l r type : DataType} :
    arithmeticType op l r = .ok type ↔
      l.isNumeric = true ∧ r.isNumeric = true ∧ l.widen r = some type := by
  cases l <;> cases r <;> simp [arithmeticType, DataType.isNumeric, DataType.widen]

/-- Two operands are compared or calculated with. -/
theorem combinedType_two {op : Operation} {types : List DataType} {type : DataType}
    (two : op.isComparison = true ∨ op ∈ [.add, .sub, .mul, .div]) :
    combinedType op types = .ok type ↔ ∃ l r, types = [l, r] ∧
      (if op.isComparison then comparisonType l r else arithmeticType op l r) = .ok type := by
  have takes : op.takes types.length = true ↔ ∃ l r, types = [l, r] := by
    rw [← List.length_eq_two]
    cases op <;> simp [Operation.isComparison] at two <;> simp [Operation.takes]
  unfold combinedType
  by_cases count : op.takes types.length = true
  · obtain ⟨l, r, rfl⟩ := takes.1 count
    rw [if_pos count]
    cases op <;> simp [Operation.isComparison] at two <;> simp
  · rw [if_neg count]
    constructor
    · intro h
      cases h
    · rintro ⟨l, r, rfl, -⟩
      exact absurd (takes.2 ⟨l, r, rfl⟩) count

/-- Operands are all truth values. -/
theorem combinedType_logic {op : Operation} {types : List DataType} {type : DataType}
    (logic : op = .and ∨ op = .or ∨ op = .not) :
    combinedType op types = .ok type ↔
      op.takes types.length = true ∧ (∀ t ∈ types, t = .boolean) ∧ type = .boolean := by
  unfold combinedType
  by_cases count : op.takes types.length = true
  · rw [if_pos count]
    obtain rfl | rfl | rfl := logic <;> simp [count, logicType_eq_ok_iff]
  · rw [if_neg count]
    simp [count]

/-- An operation has a type exactly if it accepts its operands. -/
theorem combinedType_eq_ok_iff {op : Operation} {types : List DataType} {type : DataType} :
    combinedType op types = .ok type ↔ op.Accepts types type := by
  constructor
  · intro h
    cases op with
    | and =>
      obtain ⟨count, all, rfl⟩ := (combinedType_logic (.inl rfl)).1 h
      exact .and (by simpa [Operation.takes] using count) all
    | or =>
      obtain ⟨count, all, rfl⟩ := (combinedType_logic (.inr (.inl rfl))).1 h
      exact .or (by simpa [Operation.takes] using count) all
    | not =>
      obtain ⟨count, all, rfl⟩ := (combinedType_logic (.inr (.inr rfl))).1 h
      obtain ⟨t, rfl⟩ := List.length_eq_one_iff.1 (by simpa [Operation.takes] using count)
      rw [all t List.mem_cons_self]
      exact .not
    | isNull =>
      have count := takes_of_combinedType h
      obtain ⟨t, rfl⟩ := List.length_eq_one_iff.1 (by simpa [Operation.takes] using count)
      cases h
      exact .isNull t
    | isNotNull =>
      have count := takes_of_combinedType h
      obtain ⟨t, rfl⟩ := List.length_eq_one_iff.1 (by simpa [Operation.takes] using count)
      cases h
      exact .isNotNull t
    | eq | ne | lt | le | gt | ge =>
      obtain ⟨l, r, rfl, compared⟩ := (combinedType_two (.inl rfl)).1 h
      obtain ⟨common, rfl⟩ := comparisonType_eq_ok_iff.1 compared
      exact .comparison rfl common
    | add | sub | mul | div =>
      obtain ⟨l, r, rfl, calculated⟩ := (combinedType_two (.inr (by decide))).1 h
      obtain ⟨left, right, common⟩ := arithmeticType_eq_ok_iff.1 calculated
      exact .arithmetic (by decide) left right common
  · rintro (⟨nonempty, all⟩ | ⟨nonempty, all⟩ | _ | _ | _ | ⟨compares, common⟩ |
      ⟨calculates, left, right, common⟩)
    · exact (combinedType_logic (.inl rfl)).2 ⟨by simpa [Operation.takes] using nonempty, all, rfl⟩
    · exact (combinedType_logic (.inr (.inl rfl))).2
        ⟨by simpa [Operation.takes] using nonempty, all, rfl⟩
    · rfl
    · rfl
    · rfl
    · refine (combinedType_two (.inl compares)).2 ⟨_, _, rfl, ?_⟩
      rw [if_pos compares]
      exact comparisonType_eq_ok_iff.2 ⟨common, rfl⟩
    · refine (combinedType_two (.inr calculates)).2 ⟨_, _, rfl, ?_⟩
      have other : op.isComparison = false := by
        simp only [List.mem_cons, List.not_mem_nil, or_false] at calculates
        obtain rfl | rfl | rfl | rfl := calculates <;> rfl
      rw [other]
      exact arithmeticType_eq_ok_iff.2 ⟨left, right, common⟩

/-! ## The judgement -/

/-- The expression has the type over rows of a schema. -/
inductive HasType (s : Schema) : Expr → DataType → Prop where
  | column {name : String} {c : Column} (mem : c ∈ s.columns) (named : SameName c.id name) :
      HasType s (.column name) c.type
  | const {value : Scalar} {type : DataType} (fits : Declarable value type) :
      HasType s (.const value type) type
  | combine {op : Operation} {operands : List Expr} {types : List DataType} {type : DataType}
      (each : List.Forall₂ (HasType s) operands types) (accepts : op.Accepts types type) :
      HasType s (.combine op operands) type
  | rowNumber {keys : List SortKey} (nonempty : keys ≠ [])
      (columns : ∀ k ∈ keys, s.has k.column = true) : HasType s (.rowNumber keys) .integer

mutual

def inner : Expr → List Expr
  | combine _ operands => innerAll operands
  | column _ | const _ _ | rowNumber _ => []

def innerAll : List Expr → List Expr
  | [] => []
  | e :: rest => e :: (inner e ++ innerAll rest)

end

def parts (e : Expr) : List Expr := e :: e.inner

def references (e : Expr) : List String :=
  e.parts.flatMap fun
    | column name => [name]
    | rowNumber keys => keys.map (·.column)
    | const _ _ | combine _ _ => []

variable {s : Schema}

mutual

theorem hasType_of_type {e : Expr} {type : DataType} (h : e.type s = .ok type) :
    e.HasType s type := by
  cases e with
  | column name =>
    rw [Expr.type] at h
    split at h
    · next found =>
      cases h
      obtain ⟨c, hc, rfl⟩ := Schema.type?_eq_some_iff.1 found
      obtain ⟨mem, named⟩ := Schema.find?_eq_some_iff.1 hc
      exact .column mem named
    · cases h
  | const value declared =>
    rw [Expr.type] at h
    split at h
    · next checked =>
      cases h
      exact .const (declarable_iff.2 checked)
    · cases h
  | combine op operands =>
    obtain ⟨types, each, result⟩ := type_combine_eq_ok_iff.1 h
    exact .combine (hasTypes_of_types each) (combinedType_eq_ok_iff.1 result)
  | rowNumber keys =>
    have columns := has_of_type_rowNumber h
    have nonempty : keys ≠ [] := by
      rintro rfl
      cases h
    rw [type_rowNumber nonempty columns] at h
    cases h
    exact .rowNumber nonempty columns

theorem hasTypes_of_types {es : List Expr} {types : List DataType}
    (h : List.Forall₂ (fun e type => e.type s = .ok type) es types) :
    List.Forall₂ (HasType s) es types := by
  cases h with
  | nil => exact .nil
  | cons first rest => exact .cons (hasType_of_type first) (hasTypes_of_types rest)

end

mutual

theorem HasType.type_eq_ok {e : Expr} {type : DataType} (h : e.HasType s type) :
    e.type s = .ok type := by
  cases e with
  | column name =>
    obtain ⟨mem, named⟩ := h
    exact type_column (Schema.find?_eq_some_iff.2 ⟨mem, named⟩)
  | const value declared =>
    obtain ⟨⟩ | ⟨fits⟩ := h
    exact type_const (declarable_iff.1 fits)
  | combine op operands =>
    obtain ⟨⟩ | ⟨⟩ | ⟨each, accepts⟩ := h
    exact type_combine_eq_ok_iff.2 ⟨_, types_of_hasTypes each, combinedType_eq_ok_iff.2 accepts⟩
  | rowNumber keys =>
    obtain ⟨⟩ | ⟨⟩ | ⟨⟩ | ⟨nonempty, columns⟩ := h
    exact type_rowNumber nonempty columns

theorem types_of_hasTypes {es : List Expr} {types : List DataType}
    (h : List.Forall₂ (HasType s) es types) :
    List.Forall₂ (fun e type => e.type s = .ok type) es types := by
  cases es with
  | nil => cases h; exact .nil
  | cons e es =>
    obtain ⟨⟩ | ⟨first, rest⟩ := h
    exact .cons first.type_eq_ok (types_of_hasTypes rest)

end

/-- The types that the judgement gives are those that are inferred. -/
theorem hasType_iff {e : Expr} {type : DataType} : e.HasType s type ↔ e.type s = .ok type :=
  ⟨HasType.type_eq_ok, hasType_of_type⟩

/-! ## Inside an expression -/

mutual

theorem HasType.inner {e : Expr} {type : DataType} (h : e.HasType s type) :
    ∀ part ∈ e.inner, ∃ type, part.HasType s type := by
  cases e with
  | column _ | const _ _ | rowNumber _ => exact List.forall_mem_nil _
  | combine op operands =>
    obtain ⟨⟩ | ⟨⟩ | ⟨each, -⟩ := h
    exact innerAll_of_hasTypes each

theorem innerAll_of_hasTypes {es : List Expr} {types : List DataType}
    (h : List.Forall₂ (HasType s) es types) :
    ∀ part ∈ innerAll es, ∃ type, part.HasType s type := by
  cases es with
  | nil => exact List.forall_mem_nil _
  | cons e es =>
    obtain ⟨⟩ | ⟨first, rest⟩ := h
    rw [innerAll, List.forall_mem_cons, List.forall_mem_append]
    exact ⟨⟨_, first⟩, first.inner, innerAll_of_hasTypes rest⟩

end

/-- Everything inside an expression with a type has one too. -/
theorem HasType.part {e : Expr} {type : DataType} (h : e.HasType s type) :
    ∀ part ∈ e.parts, ∃ type, part.HasType s type :=
  List.forall_mem_cons.2 ⟨⟨type, h⟩, h.inner⟩

/-- Each column that an expression with a type names is there. -/
theorem HasType.resolves {e : Expr} {type : DataType} (h : e.HasType s type) :
    ∀ name ∈ e.references, s.Resolves name := by
  intro name mem
  obtain ⟨part, inside, here⟩ := List.mem_flatMap.1 mem
  obtain ⟨type, typed⟩ := h.part part inside
  apply Schema.resolves_of_has
  cases typed with
  | column mem named =>
    obtain rfl := List.mem_singleton.1 here
    exact Schema.has_iff.2 ⟨_, mem, named⟩
  | const | combine => cases here
  | rowNumber nonempty columns =>
    obtain ⟨k, hk, rfl⟩ := List.mem_map.1 here
    exact columns k hk

mutual

theorem not_mem_inner {e : Expr} (h : e.hasRowNumber = false) (keys : List SortKey) :
    rowNumber keys ∉ e.inner := by
  cases e with
  | column _ | const _ _ | rowNumber _ => exact List.not_mem_nil
  | combine op operands => exact not_mem_innerAll h keys

theorem not_mem_innerAll {es : List Expr} (h : anyRowNumber es = false) (keys : List SortKey) :
    rowNumber keys ∉ innerAll es := by
  cases es with
  | nil => exact List.not_mem_nil
  | cons e es =>
    rw [anyRowNumber, Bool.or_eq_false_iff] at h
    rw [innerAll, List.mem_cons, List.mem_append]
    rintro (rfl | inside | rest)
    · cases h.1
    · exact not_mem_inner h.1 keys inside
    · exact not_mem_innerAll h.2 keys rest

end

/-- The function that looks for ranks misses none. -/
theorem not_mem_parts {e : Expr} (h : e.hasRowNumber = false) (keys : List SortKey) :
    rowNumber keys ∉ e.parts := by
  rw [parts, List.mem_cons]
  rintro (rfl | inside)
  · cases h
  · exact not_mem_inner h keys inside

end Expr

end Crosstab
