import Crosstab.Proofs.Meaning.Cells
import Crosstab.Proofs.Query.Typing
import Crosstab.Proofs.Sql.Evaluation
import Crosstab.Proofs.Sql.Items

namespace Crosstab

variable {V : Type} (E : Engine V)

namespace Sql

/-! ## References -/

/-- Exactly one of the names is the same as a name. -/
def Once (names : List String) (name : String) : Prop :=
  names.countP (fun n => decide (SameName n name)) = 1

section
variable {names others : List String} {name a b : String} {row other : List V}

theorem exists_findIdx?_of_once (once : Once names name) :
    ∃ i < names.length, names.findIdx? (fun n => decide (SameName n name)) = some i := by
  have found : ∃ n ∈ names, decide (SameName n name) = true := by
    rw [← List.countP_pos_iff, once]
    exact Nat.one_pos
  have hi := List.findIdx?_eq_some_of_exists found
  exact ⟨_, (List.findIdx?_eq_some_iff_getElem.1 hi).1, hi⟩

/-- A column of the owner that a reference gives is meant by its name alone. -/
theorem mayMean_owner : mayMean (some a) name ∘ (fun n => (a, n)) =
    fun n => decide (SameName n name) := by
  funext n
  simp [mayMean, SameName.refl]

/-- A column of another owner is not meant. -/
theorem mayMean_other (distinct : ¬ SameName b a) :
    mayMean (some a) name ∘ (fun n => (b, n)) = fun _ => false := by
  funext n
  simp [mayMean, distinct]

theorem columns_pair : Scope.columns [(a, names), (b, others)] =
    names.map (fun n => (a, n)) ++ others.map fun n => (b, n) := by
  simp [Scope.columns]

theorem value?_single (once : Once names name) (wide : row.length = names.length) :
    Scope.value? [(a, names)] none name row = some (E.cell names row name) := by
  obtain ⟨i, hi, found⟩ := exists_findIdx?_of_once once
  have position : Scope.position? [(a, names)] none name = some i := by
    have mean : mayMean none name ∘ (fun n => (a, n)) = fun n => decide (SameName n name) := by
      funext n
      simp [mayMean]
    have columns : Scope.columns [(a, names)] = names.map fun n => (a, n) := by
      simp [Scope.columns]
    rw [Scope.position?, columns, List.countP_map, List.findIdx?_map, mean, found]
    exact if_pos once
  rw [Scope.value?, position, Option.bind_some, Engine.cell, found]
  simp [wide, hi]

theorem value?_left (distinct : ¬ SameName b a) (once : Once names name)
    (wide : row.length = names.length) :
    Scope.value? [(a, names), (b, others)] (some a) name (row ++ other) =
      some (E.cell names row name) := by
  obtain ⟨i, hi, found⟩ := exists_findIdx?_of_once once
  have position : Scope.position? [(a, names), (b, others)] (some a) name = some i := by
    rw [Scope.position?, columns_pair, List.countP_append, List.countP_map, List.countP_map,
      List.findIdx?_append, List.findIdx?_map, mayMean_owner, mayMean_other distinct, found,
      List.countP_false]
    exact if_pos once
  rw [Scope.value?, position, Option.bind_some, Engine.cell, found,
    List.getElem?_append_left (wide ▸ hi)]
  simp [wide, hi]

theorem value?_right (distinct : ¬ SameName a b) (once : Once names name)
    (wide : row.length = names.length) (otherWide : other.length = others.length) :
    Scope.value? [(a, others), (b, names)] (some b) name (other ++ row) =
      some (E.cell names row name) := by
  obtain ⟨i, hi, found⟩ := exists_findIdx?_of_once once
  have position : Scope.position? [(a, others), (b, names)] (some b) name =
      some (i + others.length) := by
    -- The other side comes first, and none of its names is meant.
    have none : others.findIdx? (fun _ => false) = none := by simp
    have count : 0 + names.countP (fun n => decide (SameName n name)) = 1 := by
      rw [Nat.zero_add, once]
    rw [Scope.position?, columns_pair, List.countP_append, List.countP_map, List.countP_map,
      List.findIdx?_append, List.findIdx?_map, List.findIdx?_map, mayMean_owner,
      mayMean_other distinct, found, List.countP_false, none, List.length_map]
    exact if_pos count
  rw [Scope.value?, position, Option.bind_some, Engine.cell, found, ← otherWide, Nat.add_comm,
    List.getElem?_append_right (Nat.le_add_right _ _), Nat.add_sub_cancel_left]
  simp [wide, hi]

end

/-! ## Scalar expressions -/

theorem scalar_of_constant {value : Scalar} {type : DataType} {literal : Literal}
    (h : constant value type = .ok literal) : literal.scalar = value.declared type := by
  cases value with
  | null => cases h; rfl
  | bool b => cases h; rfl
  | int i =>
    cases h
    cases type <;> rfl
  | real v =>
    unfold constant at h
    dsimp only at h
    split at h <;> cases h
    rfl
  | text t =>
    unfold constant at h
    dsimp only at h
    split at h <;> cases h
    rfl

section
variable {scope : Scope} {c : Context V}

theorem meanings_eq_some_iff {es : List Expr} {values : List V} :
    Expr.meanings E scope es c = some values ↔
      List.Forall₂ (fun e v => Expr.meaning E scope e c = some v) es values := by
  induction es generalizing values with
  | nil => cases values <;> simp [Expr.meanings]
  | cons e es ih =>
    simp only [Expr.meanings, bind, pure, Option.bind_eq_some_iff, Option.some.injEq, ih]
    constructor
    · rintro ⟨v, hv, vs, hvs, rfl⟩
      exact .cons hv hvs
    · rintro (_ | ⟨hv, hvs⟩)
      exact ⟨_, hv, _, hvs, rfl⟩

theorem meaning_binary {left right : Expr} (op : BinaryOp) {v w : V}
    (hl : Expr.meaning E scope left c = some v) (hr : Expr.meaning E scope right c = some w) :
    Expr.meaning E scope (.binary left op right) c = some (op.apply E v w) := by
  simp only [Expr.meaning, hl, hr]
  rfl

/-- Operands joined from the left are combined from the left. -/
theorem meaning_joined {op : BinaryOp} {operands : List Expr} {e : Expr} {v : V} {rest : List V}
    (h : joined op operands = some e)
    (each : List.Forall₂ (fun e v => Expr.meaning E scope e c = some v) operands (v :: rest)) :
    Expr.meaning E scope e c = some (rest.foldl (op.apply E) v) := by
  cases each with
  | @cons first _ others _ hf each =>
    rw [← Option.some.inj h]
    clear h
    induction each generalizing first v with
    | nil => exact hf
    | cons hn _ ih => exact ih (meaning_binary E op hf hn)

theorem apply_of_binaryOp? {op : Operation} {binary : BinaryOp} (h : binaryOp? op = some binary)
    (v w : V) : binary.apply E v w = op.apply E [v, w] := by
  cases op <;> cases h <;> rfl

theorem meaning_combined {op : Operation} {operands : List Expr} {e : Expr} {values : List V}
    (h : combined op operands = .ok e)
    (each : List.Forall₂ (fun e v => Expr.meaning E scope e c = some v) operands values)
    (takes : op.takes values.length = true) :
    Expr.meaning E scope e c = some (op.apply E values) := by
  obtain ⟨rfl, hj⟩ | ⟨rfl, hj⟩ | ⟨last, hl, form⟩ | ⟨binary, left, right, hb, rfl, rfl⟩ :=
    combined_eq_ok h
  · cases each with
    | nil => cases takes
    | cons first others => exact meaning_joined E hj (.cons first others)
  · cases each with
    | nil => cases takes
    | cons first others => exact meaning_joined E hj (.cons first others)
  · have one : values.length = 1 := by
      obtain ⟨rfl, -⟩ | ⟨rfl, -⟩ | ⟨rfl, -⟩ := form <;> simpa [Operation.takes] using takes
    obtain ⟨v, rfl⟩ := List.length_eq_one_iff.1 one
    have hv : Expr.meaning E scope last c = some v := by
      cases each with
      | cons first others =>
        cases others
        rwa [← Option.some.inj hl]
    obtain ⟨rfl, rfl⟩ | ⟨rfl, rfl⟩ | ⟨rfl, rfl⟩ := form
    · simp only [Expr.meaning, hv]; rfl
    · simp only [Expr.meaning, hv]; rfl
    · simp only [Expr.meaning, hv]; rfl
  · cases each with
    | cons hv others =>
      cases others with
      | cons hw none =>
        cases none
        rw [meaning_binary E binary hv hw, apply_of_binaryOp? E hb]

end

theorem length_values {s : Schema} (number : List SortKey → V) (row : List V)
    (es : List Crosstab.Expr) : (Expr.values E s number row es).length = es.length := by
  rw [Expr.values_eq_map, List.length_map]

/-- What a SELECT draws from shows the columns of a schema, with the values of a row of that
schema. -/
def Shows (scope : Scope) (s : Schema) (drawn row : List V) : Prop :=
  ∀ c ∈ s.columns, scope.value? none c.id drawn = some (E.cell s.ids row c.id)

section
variable {E : Engine V} {scope : Scope} {s : Schema} {c : Context V} {row : List V}
  (shows : Shows E scope s c.row row)
include shows

theorem value?_found {name : String} {column : Column} (h : s.find? name = some column) :
    scope.value? none column.id c.row = some (E.cell s.ids row name) := by
  rw [shows column (Schema.find?_eq_some_iff.1 h).1, Schema.cell_found E h]

theorem meaning_canonical {name id : String} (h : canonical s name = .ok id) :
    (Expr.named id).meaning E scope c = some (E.cell s.ids row name) := by
  obtain ⟨column, hc, rfl⟩ := canonical_eq_ok h
  exact value?_found shows hc

theorem keyMeanings_orderKeys {keys : List SortKey} {compiled : List (Expr × Bool)}
    (h : keys.mapM (orderKey s) = .ok compiled) :
    Expr.keyMeanings E scope compiled c = some (s.sortValues E keys row) := by
  have each := mapM_eq_ok_iff.1 h
  clear h
  induction each with
  | nil => rfl
  | @cons key compiled keys others first _ ih =>
    obtain ⟨id, hid, hk⟩ := bind_eq_ok_iff.1 first
    rw [← pure_eq_ok_iff.1 hk]
    simp only [Expr.keyMeanings, meaning_canonical shows hid, ih]
    rfl

end

section
variable {E : Engine V} {scope : Scope} {s : Schema} {c : Context V} {row : List V}
  {number : List SortKey → V}

mutual

/-- The SQL of a scalar expression has the value of the expression. -/
theorem meaning_sql (shows : Shows E scope s c.row row) {e : Crosstab.Expr} {compiled : Expr}
    {type : DataType} (h : e.sql s = .ok compiled) (typed : e.type s = .ok type)
    (ranks : e.hasRowNumber = true → ∀ keys order, keys.mapM (orderKey s) = .ok order →
      (Expr.window "row_number" [] order).meaning E scope c = some (number keys)) :
    compiled.meaning E scope c = some (e.value E s number row) := by
  cases e with
  | column name =>
    obtain ⟨id, hid, rfl⟩ := map_eq_ok_iff.1 h
    exact meaning_canonical shows hid
  | const value type =>
    obtain ⟨literal, hl, rfl⟩ := map_eq_ok_iff.1 h
    rw [Expr.meaning, scalar_of_constant hl]
    rfl
  | combine op operands =>
    obtain ⟨compiledOperands, ho, hc⟩ := bind_eq_ok_iff.1 h
    obtain ⟨types, ht, result⟩ := Expr.type_combine_eq_ok_iff.1 typed
    have each := meanings_sqls shows ho ht ranks
    refine meaning_combined E hc ((meanings_eq_some_iff E).1 each) ?_
    rw [length_values, ht.length_eq]
    exact Expr.takes_of_combinedType result
  | rowNumber keys =>
    obtain ⟨order, hk, hc⟩ := bind_eq_ok_iff.1 h
    rw [← pure_eq_ok_iff.1 hc]
    exact ranks rfl keys order hk

theorem meanings_sqls (shows : Shows E scope s c.row row) {es : List Crosstab.Expr}
    {compiled : List Expr} {types : List DataType} (h : Expr.sqls s es = .ok compiled)
    (typed : List.Forall₂ (fun e type => e.type s = .ok type) es types)
    (ranks : Expr.anyRowNumber es = true → ∀ keys order, keys.mapM (orderKey s) = .ok order →
      (Expr.window "row_number" [] order).meaning E scope c = some (number keys)) :
    Expr.meanings E scope compiled c = some (Expr.values E s number row es) := by
  cases es with
  | nil => cases h; rfl
  | cons e es =>
    obtain ⟨first, hf, h⟩ := bind_eq_ok_iff.1 h
    obtain ⟨others, ho, h⟩ := bind_eq_ok_iff.1 h
    rw [← pure_eq_ok_iff.1 h]
    obtain _ | ⟨ht, hr⟩ := typed
    have head := meaning_sql shows hf ht fun some => ranks (by simp [Expr.anyRowNumber, some])
    have tail := meanings_sqls shows ho hr fun some => ranks (by simp [Expr.anyRowNumber, some])
    simp only [Expr.meanings, head, tail]
    rfl

end

end

end Sql

end Crosstab
