import Crosstab.Proofs.Query.Unsigned

namespace Crosstab

namespace Json

mutual

/-- The reals of a value in the order of its text. -/
def reals : Json → List Double
  | real v => [v]
  | array items => realsItems items
  | object fields => realsFields fields
  | null | bool _ | int _ | string _ => []

def realsItems : List Json → List Double
  | [] => []
  | item :: items => reals item ++ realsItems items

def realsFields : List (String × Json) → List Double
  | [] => []
  | (_, value) :: fields => reals value ++ realsFields fields

end

mutual

/-- The value with every zero unsigned. -/
def unsigned : Json → Json
  | real v => real v.unsigned
  | array items => array (unsignedItems items)
  | object fields => object (unsignedFields fields)
  | null => null
  | bool b => bool b
  | int i => int i
  | string s => string s

def unsignedItems : List Json → List Json
  | [] => []
  | item :: items => unsigned item :: unsignedItems items

def unsignedFields : List (String × Json) → List (String × Json)
  | [] => []
  | (name, value) :: fields => (name, unsigned value) :: unsignedFields fields

end

mutual

/-- A value without reals has no sign to lose. -/
theorem unsigned_of_reals : ∀ u : Json, u.reals = [] → u.unsigned = u
  | .real _, bare => by cases bare
  | .array items, bare => congrArg array (unsignedItems_of_reals items bare)
  | .object fields, bare => congrArg object (unsignedFields_of_reals fields bare)
  | .null, _ | .bool _, _ | .int _, _ | .string _, _ => rfl

theorem unsignedItems_of_reals : ∀ us : List Json, realsItems us = [] → unsignedItems us = us
  | [], _ => rfl
  | u :: us, bare => by
    obtain ⟨first, others⟩ := List.append_eq_nil_iff.1 bare
    rw [unsignedItems, unsigned_of_reals u first, unsignedItems_of_reals us others]

theorem unsignedFields_of_reals : ∀ fields : List (String × Json), realsFields fields = [] →
    unsignedFields fields = fields
  | [], _ => rfl
  | (name, u) :: fields, bare => by
    obtain ⟨first, others⟩ := List.append_eq_nil_iff.1 bare
    rw [unsignedFields, unsigned_of_reals u first, unsignedFields_of_reals fields others]

end

/-- Reals that only differ in the sign of a zero can be told apart by their text. -/
theorem realChars_cancel {v w : Double} (same : v.unsigned = w.unsigned) {a b : List Char}
    (text : realChars v ++ a = realChars w ++ b) : v = w ∧ a = b := by
  have minus : realChars (.zero true) = ['-', '0', '.', '0'] := by decide +kernel
  have plus : realChars (.zero false) = ['0', '.', '0'] := by decide +kernel
  by_cases equal : v = w
  · subst equal
    exact ⟨rfl, List.append_cancel_left text⟩
  · exfalso
    by_cases hv : v = .zero true
    · by_cases hw : w = .zero true
      · exact equal (hv.trans hw.symm)
      · rw [hv, Double.unsigned_zero, Double.unsigned_of_ne hw] at same
        rw [hv, ← same, minus, plus] at text
        cases text
    · rw [Double.unsigned_of_ne hv] at same
      by_cases hw : w = .zero true
      · rw [hw, Double.unsigned_zero] at same
        rw [hw, same, minus, plus] at text
        cases text
      · exact equal (same.trans (Double.unsigned_of_ne hw))

mutual

/-- Values that only differ in the signs of zeros can be told apart by their text. -/
theorem chars_cancel : ∀ u v : Json, u.unsigned = v.unsigned → ∀ a b,
    u.chars ++ a = v.chars ++ b → u = v ∧ a = b
  | .real _, v, same, a, b, text => by
    cases v with
    | real =>
      obtain ⟨rfl, rest⟩ := realChars_cancel (real.inj same) text
      exact ⟨rfl, rest⟩
    | null | bool | int | string | array | object => cases same
  | .array [], v, same, a, b, text => by
    cases v with
    | array items =>
      cases items with
      | nil => exact ⟨rfl, List.append_cancel_left text⟩
      | cons => cases same
    | null | bool | int | string | real | object => cases same
  | .array (u :: us), v, same, a, b, text => by
    cases v with
    | array items =>
      cases items with
      | nil => cases same
      | cons w ws =>
        obtain ⟨first, others⟩ := List.cons.inj (array.inj same)
        rw [chars, chars, List.cons_append, List.cons_append, List.append_assoc,
          List.append_assoc] at text
        obtain ⟨rfl, more⟩ := chars_cancel u w first _ _ (List.cons.inj text).2
        obtain ⟨rfl, rest⟩ := itemsChars_cancel us ws others a b more
        exact ⟨rfl, rest⟩
    | null | bool | int | string | real | object => cases same
  | .object [], v, same, a, b, text => by
    cases v with
    | object fields =>
      cases fields with
      | nil => exact ⟨rfl, List.append_cancel_left text⟩
      | cons => cases same
    | null | bool | int | string | real | array => cases same
  | .object ((name, u) :: fs), v, same, a, b, text => by
    cases v with
    | object fields =>
      cases fields with
      | nil => cases same
      | cons field gs =>
        obtain ⟨name', w⟩ := field
        obtain ⟨first, others⟩ := List.cons.inj (object.inj same)
        obtain ⟨rfl, value⟩ := Prod.mk.inj first
        simp only [chars, List.cons_append, List.append_assoc] at text
        have text := (List.cons.inj (List.append_cancel_left (List.cons.inj text).2)).2
        obtain ⟨rfl, more⟩ := chars_cancel u w value _ _ text
        obtain ⟨rfl, rest⟩ := fieldsChars_cancel fs gs others a b more
        exact ⟨rfl, rest⟩
    | null | bool | int | string | real | array => cases same
  | .null, v, same, a, b, text | .bool _, v, same, a, b, text | .int _, v, same, a, b, text
  | .string _, v, same, a, b, text => by
    cases v <;> cases same
    exact ⟨rfl, List.append_cancel_left text⟩

theorem itemsChars_cancel : ∀ us vs : List Json, unsignedItems us = unsignedItems vs → ∀ a b,
    itemsChars us ++ a = itemsChars vs ++ b → us = vs ∧ a = b
  | [], vs, same, a, b, text => by
    cases vs with
    | nil => exact ⟨rfl, List.append_cancel_left text⟩
    | cons => cases same
  | u :: us, vs, same, a, b, text => by
    cases vs with
    | nil => cases same
    | cons w ws =>
      obtain ⟨first, others⟩ := List.cons.inj same
      simp only [itemsChars, List.cons_append, List.append_assoc] at text
      obtain ⟨rfl, more⟩ := chars_cancel u w first _ _ (List.cons.inj text).2
      obtain ⟨rfl, rest⟩ := itemsChars_cancel us ws others a b more
      exact ⟨rfl, rest⟩

theorem fieldsChars_cancel : ∀ fs gs : List (String × Json), unsignedFields fs = unsignedFields gs →
    ∀ a b, fieldsChars fs ++ a = fieldsChars gs ++ b → fs = gs ∧ a = b
  | [], gs, same, a, b, text => by
    cases gs with
    | nil => exact ⟨rfl, List.append_cancel_left text⟩
    | cons => cases same
  | (name, u) :: fs, gs, same, a, b, text => by
    cases gs with
    | nil => cases same
    | cons field gs =>
      obtain ⟨name', w⟩ := field
      obtain ⟨first, others⟩ := List.cons.inj same
      obtain ⟨rfl, value⟩ := Prod.mk.inj first
      simp only [fieldsChars, List.cons_append, List.append_assoc] at text
      have text := (List.cons.inj (List.append_cancel_left (List.cons.inj text).2)).2
      obtain ⟨rfl, more⟩ := chars_cancel u w value _ _ text
      obtain ⟨rfl, rest⟩ := fieldsChars_cancel fs gs others a b more
      exact ⟨rfl, rest⟩

end

/-! ## Lists of values -/

theorem realsItems_map {α : Type} (f : α → Json) (l : List α) :
    realsItems (l.map f) = l.flatMap fun a => (f a).reals := by
  induction l with
  | nil => rfl
  | cons a l ih => rw [List.map_cons, realsItems, ih, List.flatMap_cons]

theorem realsFields_map {α : Type} (name : α → String) (f : α → Json) (l : List α) :
    realsFields (l.map fun a => (name a, f a)) = l.flatMap fun a => (f a).reals := by
  induction l with
  | nil => rfl
  | cons a l ih => rw [List.map_cons, realsFields, ih, List.flatMap_cons]

theorem reals_strings (values : List String) : (strings values).reals = [] := by
  simp [strings, reals, realsItems_map]

end Json

open Json (realsItems_map realsFields_map reals_strings)

/-! ## What is encoded -/

theorem Schema.reals_toJson (s : Schema) : s.toJson.reals = [] := by
  simp [Schema.toJson, Json.reals, Json.realsFields, realsFields_map, reals_strings,
    Metadata.toJson, DataType.toJson]

theorem SortKey.realsItems_toJson (keys : List SortKey) :
    Json.realsItems (keys.map SortKey.toJson) = [] := by
  simp [realsItems_map, SortKey.toJson, Json.reals, Json.realsFields]

theorem AggregateColumn.realsItems_toJson (aggregates : List AggregateColumn) :
    Json.realsItems (aggregates.map AggregateColumn.toJson) = [] := by
  simp [realsItems_map, AggregateColumn.toJson, Json.reals, Json.realsFields]

theorem reals_mappingJson (mapping : OrderedMap String Renaming) :
    (mappingJson mapping).reals = [] := by
  have each (r : Renaming) : r.toJson.reals = [] := by
    obtain ⟨id, displayName⟩ := r
    cases id <;> cases displayName <;> rfl
  simp [mappingJson, Json.reals, realsFields_map, each]

theorem Scalar.toJson_unsigned (v : Scalar) : v.unsigned.toJson = v.toJson.unsigned := by
  cases v <;> rfl

namespace Expr

mutual

theorem toJson_unsigned : ∀ e : Expr, e.unsigned.toJson = e.toJson.unsigned
  | .column _ => rfl
  | .const value type => by
    simp [unsigned, toJson, Json.unsigned, Json.unsignedFields, value.toJson_unsigned,
      DataType.toJson]
  | .combine op operands => by
    simp [unsigned, toJson, Json.unsigned, Json.unsignedFields, toJsons_unsignedAll operands]
  | .rowNumber keys => by
    simp [unsigned, toJson, Json.unsigned, Json.unsignedFields,
      Json.unsignedItems_of_reals _ (SortKey.realsItems_toJson keys)]

theorem toJsons_unsignedAll : ∀ es : List Expr,
    toJsons (unsignedAll es) = Json.unsignedItems (toJsons es)
  | [] => rfl
  | e :: es => by
    rw [unsignedAll, toJsons, toJsons, Json.unsignedItems, toJson_unsigned e,
      toJsons_unsignedAll es]

end

mutual

theorem reals_toJson : ∀ e : Expr, e.toJson.reals = e.reals
  | .column _ => rfl
  | .const value type => by
    cases value <;>
      simp [toJson, Json.reals, Json.realsFields, Scalar.toJson, DataType.toJson, reals,
        Scalar.reals]
  | .combine op operands => by
    simp [toJson, Json.reals, Json.realsFields, reals, realsItems_toJsons operands]
  | .rowNumber keys => by
    simp [toJson, Json.reals, Json.realsFields, reals, SortKey.realsItems_toJson]

theorem realsItems_toJsons : ∀ es : List Expr, Json.realsItems (toJsons es) = realsOf es
  | [] => rfl
  | e :: es => by
    rw [toJsons, Json.realsItems, realsOf, reals_toJson e, realsItems_toJsons es]

end

end Expr

namespace Plan

variable {s : Schema}

theorem toJson_unsigned (p : Plan s) : p.unsigned.toJson = p.toJson.unsigned := by
  induction p with
  | table _ schema =>
    simp [unsigned, toJson, Json.unsigned, Json.unsignedFields,
      Json.unsigned_of_reals _ schema.reals_toJson]
  | project _ columns _ ih =>
    simp [unsigned, toJson, Json.unsigned, Json.unsignedFields, ih,
      Json.unsigned_of_reals _ (reals_strings columns)]
  | filter _ predicate _ ih =>
    simp [unsigned, toJson, Json.unsigned, Json.unsignedFields, ih, predicate.toJson_unsigned]
  | groupBy _ columns aggregates _ ih =>
    simp [unsigned, toJson, Json.unsigned, Json.unsignedFields, ih,
      Json.unsigned_of_reals _ (reals_strings columns),
      Json.unsignedItems_of_reals _ (AggregateColumn.realsItems_toJson aggregates)]
  | sort _ keys _ ih =>
    simp [unsigned, toJson, Json.unsigned, Json.unsignedFields, ih,
      Json.unsignedItems_of_reals _ (SortKey.realsItems_toJson keys)]
  | extend _ _ _ value _ ih =>
    simp [unsigned, toJson, Json.unsigned, Json.unsignedFields, ih, value.toJson_unsigned,
      DataType.toJson]
  | mapColumns _ mapping _ ih =>
    simp [unsigned, toJson, Json.unsigned, Json.unsignedFields, ih,
      Json.unsigned_of_reals _ (reals_mappingJson mapping)]
  | mapColumnsAt _ mapping _ ih =>
    simp [unsigned, toJson, Json.unsigned, Json.unsignedFields, ih,
      Json.unsigned_of_reals _ (reals_mappingJson (indexTexts mapping))]
  | concat _ _ _ ihl ihr =>
    simp [unsigned, toJson, Json.unsigned, Json.unsignedFields, ihl, ihr]
  | join _ _ keys _ nullSafe _ ihl ihr =>
    cases nullSafe <;> simp [unsigned, toJson, Json.unsigned, Json.unsignedFields, ihl, ihr,
      Json.unsigned_of_reals _ (reals_strings keys)]

/-- The reals of an encoded plan are its constants. -/
theorem reals_toJson (p : Plan s) : p.toJson.reals = p.reals := by
  induction p with
  | table => simp [toJson, Json.reals, Json.realsFields, reals, Schema.reals_toJson]
  | project _ _ _ ih => simp [toJson, Json.reals, Json.realsFields, reals, ih, reals_strings]
  | filter _ predicate _ ih =>
    simp [toJson, Json.reals, Json.realsFields, reals, ih, predicate.reals_toJson]
  | groupBy _ _ _ _ ih =>
    simp [toJson, Json.reals, Json.realsFields, reals, ih, reals_strings,
      AggregateColumn.realsItems_toJson]
  | sort _ _ _ ih =>
    simp [toJson, Json.reals, Json.realsFields, reals, ih, SortKey.realsItems_toJson]
  | extend _ _ _ value _ ih =>
    simp [toJson, Json.reals, Json.realsFields, reals, ih, value.reals_toJson, DataType.toJson]
  | mapColumns _ _ _ ih | mapColumnsAt _ _ _ ih =>
    simp [toJson, Json.reals, Json.realsFields, reals, ih, reals_mappingJson]
  | concat _ _ _ ihl ihr => simp [toJson, Json.reals, Json.realsFields, reals, ihl, ihr]
  | join _ _ _ _ nullSafe _ ihl ihr =>
    cases nullSafe <;> simp [toJson, Json.reals, Json.realsFields, reals, ihl, ihr, reals_strings]

end Plan

/-- Queries that only differ in the signs of zeros have one JSON text exactly if their constants are
the same. -/
theorem Query.render_eq_iff {q r : Query} (same : q.unsigned = r.unsigned) :
    q.toJson.render = r.toJson.render ↔ q.plan.reals = r.plan.reals := by
  constructor
  · intro text
    have chars := congrArg String.toList text
    simp only [Json.render, String.toList_ofList] at chars
    have forms : q.toJson.unsigned = r.toJson.unsigned := by
      rw [toJson, toJson, ← Plan.toJson_unsigned, ← Plan.toJson_unsigned]
      exact congrArg toJson same
    have json : q.toJson = r.toJson :=
      (Json.chars_cancel _ _ forms [] [] (by rw [chars])).1
    rw [← Plan.reals_toJson, ← Plan.reals_toJson]
    exact congrArg Json.reals json
  · intro reals
    rw [eq_of_unsigned same reals]

end Crosstab
