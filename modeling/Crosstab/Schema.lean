import Crosstab.Error
import Crosstab.OrderedMap

/-!
# Schemas

An ordered list of columns whose ids are not empty and pairwise different as names. A schema carries
this, so every list of columns that is none fails where the schema is made.
-/

namespace Crosstab

/-- A column: its id, its type and the name that people see. -/
structure Column where
  id : String
  type : DataType
  displayName : String
  deriving DecidableEq

/-- A column that is shown by its id. -/
def Column.named (id : String) (type : DataType) : Column := ⟨id, type, id⟩

/-- What is known of a column besides its id. -/
structure Metadata where
  type : DataType
  displayName : String
  deriving DecidableEq

def Column.metadata (c : Column) : Metadata := ⟨c.type, c.displayName⟩

/-- An ordered list of columns with ids that are not empty and differ as names. -/
structure Schema where
  columns : List Column
  ids_nonempty : ∀ c ∈ columns, c.id ≠ ""
  ids_distinct : (columns.map fun c => foldCase c.id).Nodup
  deriving DecidableEq

namespace Schema

/-- The first fault of a list of columns, after columns with the given ids. -/
def fault? (seen : List (List Char)) : List Column → Option SchemaError
  | [] => none
  | c :: rest =>
    if c.id = "" then some .emptyId
    else if foldCase c.id ∈ seen then some (.duplicateId c.id)
    else fault? (foldCase c.id :: seen) rest

theorem fault?_eq_none_iff (seen : List (List Char)) (columns : List Column) :
    fault? seen columns = none ↔
      (∀ c ∈ columns, c.id ≠ "") ∧ (∀ c ∈ columns, foldCase c.id ∉ seen) ∧
        (columns.map fun c => foldCase c.id).Nodup := by
  induction columns generalizing seen with
  | nil => simp [fault?]
  | cons c rest ih =>
    unfold fault?
    by_cases hid : c.id = ""
    · simp [hid]
    · by_cases hseen : foldCase c.id ∈ seen
      · simp [hid, hseen]
      · simp only [hid, hseen, if_false, ih, List.mem_cons, not_or, List.map_cons, List.nodup_cons,
          List.mem_map, forall_eq_or_imp, not_false_eq_true, true_and, ne_eq, not_exists, not_and]
        constructor
        · rintro ⟨h1, h2, h3⟩
          exact ⟨h1, fun d hd => (h2 d hd).2, fun d hd e => (h2 d hd).1 e, h3⟩
        · rintro ⟨h1, h2, h3, h4⟩
          exact ⟨h1, fun d hd => ⟨fun e => h3 d hd e, h2 d hd⟩, h4⟩

def ofColumns (columns : List Column) : Except SchemaError Schema :=
  match h : fault? [] columns with
  | some e => .error e
  | none =>
    have ok := (fault?_eq_none_iff [] columns).1 h
    .ok ⟨columns, ok.1, ok.2.2⟩

def empty : Schema := ⟨[], by simp, by simp⟩

def ids (s : Schema) : List String := s.columns.map (·.id)

/-- The column that a name means. -/
def find? (s : Schema) (name : String) : Option Column :=
  s.columns.find? fun c => decide (SameName c.id name)

/-- The position of the column that a name means. -/
def index? (s : Schema) (name : String) : Option Nat :=
  s.columns.findIdx? fun c => decide (SameName c.id name)

/-- A name means a column. -/
def has (s : Schema) (name : String) : Bool := (s.find? name).isSome

def type? (s : Schema) (name : String) : Option DataType := (s.find? name).map (·.type)

/-- The column of one id, by metadata given as names. -/
def describedColumn (metadata : OrderedMap String (String × Option String)) (id : String) :
    Except SchemaError Column :=
  match metadata.get? id with
  | none => .error (.noMetadata id)
  | some (typeName, displayName) =>
    match DataType.ofName? typeName with
    | none => .error (.unknownType (lowerAscii typeName))
    | some type => .ok ⟨id, type, displayName.getD id⟩

/-- The schema of a list of ids and a map from ids to a type's name and a display name; a column
without a display name is shown by its id. -/
def ofDescriptions (ids : List String) (metadata : OrderedMap String (String × Option String)) :
    Except SchemaError Schema := do
  ofColumns (← ids.mapM (describedColumn metadata))

end Schema

end Crosstab
