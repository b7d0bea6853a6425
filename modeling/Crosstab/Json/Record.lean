import Crosstab.Error
import Crosstab.Json.Draft
import Crosstab.OrderedMap

/-!
# Decoding JSON

How drafts become values of other types. Whatever is wrong with a draft, the error that comes first
in the text counts.

* `Fields` describes the fields of a record; `Fields.read` reads the record from an object, or from
  an array of its fields in order. Fields of other names are skipped; a field that is given twice is
  an error;
* `Draft.listOf` and `Draft.mapOf` read lists and maps; of two entries of one key the later counts;
* `Draft.tag` reads one of several names. A name may also be the only field of an object whose value
  is null.

A value that was read as a whole before it is taken apart (`buffered`) is a little more lenient
about names: the object may have an empty object for null, and a variant may be given by its number.
-/

namespace Crosstab.Json

namespace Draft

abbrev Decoded (α : Type) := Except JsonError α

def text : Draft → Decoded String
  | string (some s) => .ok s
  | _ => .error .malformed

def flag : Draft → Decoded Bool
  | bool b => .ok b
  | _ => .error .malformed

def optional {α : Type} (decode : Draft → Decoded α) : Draft → Decoded (Option α)
  | null => .ok none
  | d => (decode d).map some

def listOf {α : Type} (decode : Draft → Decoded α) : Draft → Decoded (List α)
  | array items => items.mapM decode
  | _ => .error .malformed

/-- A field of a map. -/
def entry {α : Type} (decode : Draft → Decoded α) : Option String × Draft → Decoded (String × α)
  | (some name, value) => (decode value).map (name, ·)
  | (none, _) => .error .malformed

/-- A map from strings. -/
def mapOf {α : Type} (decode : Draft → Decoded α) : Draft → Decoded (OrderedMap String α)
  | object fields => (fields.mapM (entry decode)).map OrderedMap.ofList
  | _ => .error .malformed

/-- A name out of several. -/
def tag (buffered : Bool) : Draft → Decoded String
  | string (some s) => .ok s
  | object [(some s, null)] => .ok s
  | object [(some s, object [])] => if buffered then .ok s else .error .malformed
  | _ => .error .malformed

/-- A value that a name stands for. -/
def named {α : Type} (buffered : Bool) (ofTag? : String → Option α) (d : Draft) : Decoded α := do
  match ofTag? (← d.tag buffered) with
  | some a => .ok a
  | none => .error .malformed

/-- The variant that a tag selects; once the value is buffered also by number. -/
def variant {α : Type} (buffered : Bool) (all : List α) (tagOf : α → String) : Draft → Decoded α
  | string (some s) =>
    match all.find? (tagOf · == s) with
    | some a => .ok a
    | none => .error .malformed
  | number (some (.int i)) =>
    match if buffered && decide (0 ≤ i) then all[i.toNat]? else none with
    | some a => .ok a
    | none => .error .malformed
  | _ => .error .malformed

/-- The value that a whole text is, and nothing after it. -/
def ofText {α : Type} (decode : Draft → Decoded α) (s : String) : Decoded α := do
  let (draft, rest) := Json.read s.toList
  let value ← decode draft
  if Json.skipBlanks rest = [] then .ok value else .error .malformed

end Draft

open Draft (Decoded)

/-- The fields of a record in the order of their declaration, each with its decoder. `σ` is the type
of what is known while the fields are read, `τ` that of the whole record. -/
inductive Fields : Type → Type → Type 1
  | done : Fields Unit Unit
  /-- A field that must be there. -/
  | must {α σ τ : Type} (name : String) (decode : Draft → Decoded α) (rest : Fields σ τ) :
      Fields (Option α × σ) (α × τ)
  /-- A field that has a default. -/
  | may {α σ τ : Type} (name : String) (decode : Draft → Decoded α) (default : α)
      (rest : Fields σ τ) : Fields (Option α × σ) (α × τ)
  /-- A field that may be null, or be left out of an object. -/
  | nullable {α σ τ : Type} (name : String) (decode : Draft → Decoded α) (rest : Fields σ τ) :
      Fields (Option (Option α) × σ) (Option α × τ)

namespace Fields

/-- What is known before any field is read. -/
def start {σ τ : Type} : Fields σ τ → σ
  | done => ()
  | must _ _ rest => (none, rest.start)
  | may _ _ _ rest => (none, rest.start)
  | nullable _ _ rest => (none, rest.start)

def names {σ τ : Type} : Fields σ τ → List String
  | done => []
  | must name _ rest => name :: rest.names
  | may name _ _ rest => name :: rest.names
  | nullable name _ rest => name :: rest.names

/-- How many items an array of the fields must have: up to the last field without a default. -/
def least {σ τ : Type} : Fields σ τ → Nat
  | done => 0
  | must _ _ rest => rest.least + 1
  | may _ _ _ rest => if rest.least = 0 then 0 else rest.least + 1
  | nullable _ _ rest => rest.least + 1

/-- One more value for a field that may only have one. -/
def once {α : Type} (decode : Draft → Decoded α) (d : Draft) : Option α → Decoded (Option α)
  | some _ => .error .malformed
  | none => (decode d).map some

/-- What is known after one more field; a field of another name is skipped. -/
def set {σ τ : Type} (name : String) (d : Draft) : Fields σ τ → σ → Decoded σ
  | done, () => if d.skippable then .ok () else .error .malformed
  | must n decode rest, (a, known) =>
    if name = n then (once decode d a).map (·, known) else (rest.set name d known).map (a, ·)
  | may n decode _ rest, (a, known) =>
    if name = n then (once decode d a).map (·, known) else (rest.set name d known).map (a, ·)
  | nullable n decode rest, (a, known) =>
    if name = n then (once (Draft.optional decode) d a).map (·, known)
    else (rest.set name d known).map (a, ·)

/-- The record that is known once all fields are read. -/
def finish {σ τ : Type} : Fields σ τ → σ → Decoded τ
  | done, () => .ok ()
  | must _ _ rest, (a, known) =>
    match a with
    | some a => (rest.finish known).map (a, ·)
    | none => .error .malformed
  | may _ _ default rest, (a, known) => (rest.finish known).map (a.getD default, ·)
  | nullable _ _ rest, (a, known) => (rest.finish known).map (a.getD none, ·)

/-- The fields of an object, one after the other. -/
def readObject {σ τ : Type} (fields : Fields σ τ) : List (Option String × Draft) → σ → Decoded σ
  | [], known => .ok known
  | (none, _) :: _, _ => .error .malformed
  | (some name, d) :: rest, known => do fields.readObject rest (← fields.set name d known)

/-- The items of an array, as the fields of the names in order. -/
def readArray {σ τ : Type} (fields : Fields σ τ) : List String → List Draft → σ → Decoded σ
  | _, [], known => .ok known
  | [], _ :: _, _ => .error .malformed
  | name :: names, d :: rest, known => do fields.readArray names rest (← fields.set name d known)

/-- The record of a JSON value. -/
def read {σ τ : Type} (fields : Fields σ τ) : Draft → Decoded τ
  | .object entries => do fields.finish (← fields.readObject entries fields.start)
  | .array items => do
    let known ← fields.readArray fields.names items fields.start
    if items.length < fields.least then .error .malformed else fields.finish known
  | _ => .error .malformed

end Fields

end Crosstab.Json
