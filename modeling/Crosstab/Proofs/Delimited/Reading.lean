import Crosstab.Proofs.Delimited.Grammar
import Crosstab.Proofs.Double.Numerals
import Crosstab.Proofs.Json.Parts

/-!
# What is read from a delimited text

A table that was read has a row for every line with something in it, and every value is what its
field says in a column of the type that the fields of the column have in common.
-/

namespace Crosstab.Delimited

/-- A field with something in it. -/
def Filled (field : String) : Prop := Text.isBlankText field = false

/-- Blank ends aside, a field is an integer of 64 bits. -/
def IsInteger (field : String) : Prop := ∃ i : Int64, DenotesInt (Text.trim field.toList) i.toInt

/-- Blank ends aside, a field is a real. -/
def IsReal (field : String) : Prop := ∃ v : Double, DenotesReal (Text.trim field.toList) v

/-- The type of a column with the fields, of which only those with something in them count. -/
inductive Inferred (fields : List String) : DataType → Prop
  | blank (none : ∀ f ∈ fields, ¬Filled f) : Inferred fields .text
  | integer (some : ∃ f ∈ fields, Filled f) (all : ∀ f ∈ fields, Filled f → IsInteger f) :
      Inferred fields .integer
  | real (other : ∃ f ∈ fields, Filled f ∧ ¬IsInteger f)
      (all : ∀ f ∈ fields, Filled f → IsReal f) : Inferred fields .real
  | text (other : ∃ f ∈ fields, Filled f ∧ ¬IsReal f) : Inferred fields .text

/-- The value of a field, or of a missing one, in a column of the type. -/
inductive Decodes : DataType → Option String → Scalar → Prop
  | missing {type : DataType} : Decodes type none .null
  | blank {type : DataType} {field : String} (empty : ¬Filled field) :
      Decodes type (some field) .null
  | text {field : String} (filled : Filled field) : Decodes .text (some field) (.text field)
  | integer {field : String} {i : Int64} (filled : Filled field)
      (denotes : DenotesInt (Text.trim field.toList) i.toInt) :
      Decodes .integer (some field) (.int i)
  | real {field : String} {v : Double} (filled : Filled field)
      (denotes : DenotesReal (Text.trim field.toList) v) : Decodes .real (some field) (.real v)

/-- A row has one value for each column, that of the field there. -/
structure DecodesRow (columns : List Column) (row : List String) (cells : List Scalar) : Prop where
  fits : row.length ≤ columns.length
  width : cells.length = columns.length
  cell : ∀ (j : Nat) (column : Column), columns[j]? = some column →
    ∃ v, cells[j]? = some v ∧ Decodes column.type row[j]? v

/-- A table is what rows of fields say. -/
structure Reads (rows : List (List String)) (t : Table) : Prop where
  cells : List.Forall₂ (DecodesRow t.schema.columns) rows t.rows
  types : ∀ (j : Nat) (column : Column), t.schema.columns[j]? = some column →
    Inferred (rows.map fun row => row.getD j "") column.type

/-! ## Columns -/

theorem isInteger_iff {field : String} :
    IsInteger field ↔ (readInt64? (Text.trim field.toList)).isSome := by
  simp only [IsInteger, Option.isSome_iff_exists, readInt64?_eq_some_iff]

theorem isReal_iff {field : String} :
    IsReal field ↔ (Double.read? (Text.trim field.toList)).isSome := by
  simp only [IsReal, Option.isSome_iff_exists, Double.read?_eq_some_iff]

/-- The type that is found is the one that the fields have in common. -/
theorem inferred_columnType (fields : List String) : Inferred fields (columnType fields) := by
  have members : ∀ cs, (cs ∈ (fields.filter fun cell => !Text.isBlankText cell).map
      fun cell => Text.trim cell.toList) ↔ ∃ f ∈ fields, Filled f ∧ Text.trim f.toList = cs := by
    simp [Filled, and_assoc]
  simp only [columnType]
  generalize (fields.filter fun cell => !Text.isBlankText cell).map
    (fun cell => Text.trim cell.toList) = filled at members ⊢
  -- What every text passes every field with something in it passes, and one that fails is a field's.
  have every {p : List Char → Bool} (h : filled.all p = true) {f : String} (hf : f ∈ fields)
      (some : Filled f) : p (Text.trim f.toList) = true :=
    List.all_eq_true.1 h _ ((members _).2 ⟨f, hf, some, rfl⟩)
  have other {p : List Char → Bool} (h : ¬filled.all p = true) :
      ∃ f ∈ fields, Filled f ∧ ¬p (Text.trim f.toList) = true := by
    simp only [List.all_eq_true, not_forall] at h
    obtain ⟨_, member, fails⟩ := h
    obtain ⟨f, hf, some, rfl⟩ := (members _).1 member
    exact ⟨f, hf, some, fails⟩
  split
  · next none =>
    refine .blank fun f hf some => ?_
    exact absurd ((members _).2 ⟨f, hf, some, rfl⟩) (none ▸ List.not_mem_nil)
  · next nonempty =>
    split
    · next integers =>
      obtain ⟨cs, first⟩ := List.exists_mem_of_ne_nil _ nonempty
      obtain ⟨f, hf, some, -⟩ := (members cs).1 first
      exact .integer ⟨f, hf, some⟩ fun f hf some => isInteger_iff.2 (every integers hf some)
    · next odd =>
      split
      · next reals =>
        obtain ⟨f, hf, some, fails⟩ := other odd
        exact .real ⟨f, hf, some, fails ∘ isInteger_iff.1⟩
          fun f hf some => isReal_iff.2 (every reals hf some)
      · next odd =>
        obtain ⟨f, hf, some, fails⟩ := other odd
        exact .text ⟨f, hf, some, fails ∘ isReal_iff.1⟩

/-- In a column of its type, a field is never null for failing to be a number. -/
theorem decodes_cellValue {fields : List String} {type : DataType} (inferred : Inferred fields type)
    {field : String} (hf : field ∈ fields) : Decodes type (some field) (cellValue type field) := by
  by_cases filled : Filled field
  · unfold cellValue
    rw [if_neg (by rw [filled]; decide)]
    cases inferred with
    | blank | text => exact .text filled
    | integer _ all =>
      obtain ⟨i, denotes⟩ := all field hf filled
      rw [readInt64?_eq_some_iff.2 denotes]
      exact .integer filled denotes
    | real _ all =>
      obtain ⟨v, denotes⟩ := all field hf filled
      rw [Double.read?_eq_some_iff.2 denotes]
      exact .real filled denotes
  · unfold cellValue
    rw [if_pos (Bool.not_eq_false _ ▸ filled)]
    exact .blank filled

/-! ## Rows -/

theorem fillRows_eq_ok_iff {width number : Nat} {rows filled : List (List String)} :
    fillRows width number rows = .ok filled ↔
      (∀ row ∈ rows, row.length ≤ width) ∧ filled = rows.map fun row => row.rightpad width "" := by
  induction rows generalizing number filled with
  | nil => simp [fillRows, eq_comm]
  | cons row rows ih =>
    rw [fillRows]
    by_cases long : width < row.length
    · simp [long, Nat.not_le.2 long]
    · simp only [if_neg long, map_eq_ok_iff, ih, List.forall_mem_cons, List.map_cons,
        Nat.not_lt.1 long, true_and]
      constructor
      · rintro ⟨_, ⟨short, rfl⟩, rfl⟩
        exact ⟨short, rfl⟩
      · rintro ⟨short, rfl⟩
        exact ⟨_, ⟨short, rfl⟩, rfl⟩

theorem getElem?_rightpad {row : List String} {width j : Nat} (h : row.length ≤ width)
    (hj : j < width) : (row.rightpad width "")[j]? = some (row.getD j "") := by
  rw [List.rightpad, List.getElem?_append]
  split
  · next inside => simp [List.getD, inside]
  · next outside =>
    rw [List.getElem?_replicate_of_lt (by omega), List.getD, List.getElem?_eq_none (by omega),
      Option.getD_none]

def typesOf (width : Nat) (rows : List (List String)) : List DataType :=
  columnTypes width (rows.map fun row => row.rightpad width "")

theorem length_typesOf (width : Nat) (rows : List (List String)) :
    (typesOf width rows).length = width := by
  simp [typesOf, columnTypes]

theorem getElem?_typesOf {width j : Nat} {rows : List (List String)}
    (fit : ∀ row ∈ rows, row.length ≤ width) (hj : j < width) :
    (typesOf width rows)[j]? = some (columnType (rows.map fun row => row.getD j "")) := by
  have column : (rows.map fun row => row.rightpad width "").map (fun row => row.getD j "") =
      rows.map fun row => row.getD j "" := by
    rw [List.map_map]
    refine List.map_congr_left fun row hr => ?_
    change (row.rightpad width "").getD j "" = _
    rw [List.getD, getElem?_rightpad (fit row hr) hj, Option.getD_some]
  rw [typesOf, columnTypes, List.getElem?_map, List.getElem?_range hj, Option.map_some, column]

/-- What is read from a text, by its names and rows. -/
theorem read_eq_ok_iff {format : Format} {text : String} {t : Table} :
    read format text = .ok t ↔ ∃ names rows,
      layout format (Text.linesOf text.toList) = .ok (names, rows) ∧
      (∀ row ∈ rows, row.length ≤ names.length) ∧
      t.schema.columns = List.zipWith Column.named names (typesOf names.length rows) ∧
      t.rows = rows.map fun row =>
        List.zipWith cellValue (typesOf names.length rows) (row.rightpad names.length "") := by
  simp only [read, bind_eq_ok_iff, mapError_eq_ok_iff, pure_eq_ok_iff, Prod.exists,
    fillRows_eq_ok_iff, Schema.ofColumns_eq_ok_iff]
  constructor
  · rintro ⟨names, rows, laid, _, ⟨fit, rfl⟩, schema, columns, rfl⟩
    exact ⟨names, rows, laid, fit, columns, List.map_map⟩
  · rintro ⟨names, rows, laid, fit, columns, cells⟩
    refine ⟨names, rows, laid, _, ⟨fit, rfl⟩, t.schema, columns, ?_⟩
    rw [List.map_map]
    exact congrArg (Table.mk t.schema) cells.symm

theorem rawRows_of_layout {format : Format} {text : String} {names : List String}
    {rows : List (List String)} (h : layout format (Text.linesOf text.toList) = .ok (names, rows)) :
    RawRows format text rows := by
  rw [rawRows_iff]
  unfold layout at h
  split at h
  · next header =>
    rw [if_pos header]
    split at h
    · cases h
    · next lines =>
      cases h
      rw [lines, List.tail_cons]
  · next header =>
    cases h
    rw [if_neg header]

section
variable {names : List String} {rows : List (List String)} {columns : List Column}
  (fit : ∀ row ∈ rows, row.length ≤ names.length)
  (named : columns = List.zipWith Column.named names (typesOf names.length rows))
include named

theorem width_eq : columns.length = names.length := by
  rw [named, List.length_zipWith, length_typesOf, Nat.min_self]

theorem ids_eq : columns.map (·.id) = names := by
  rw [named, List.map_zipWith]
  exact (List.map_zip_eq_zipWith (f := Prod.fst)).symm.trans
    (List.map_fst_zip (length_typesOf ..).ge)

include fit

theorem column_type {j : Nat} {column : Column} (hc : columns[j]? = some column) :
    (typesOf names.length rows)[j]? = some column.type ∧
      Inferred (rows.map fun row => row.getD j "") column.type := by
  have inside : j < names.length := width_eq named ▸ (List.getElem?_eq_some_iff.1 hc).1
  rw [named, List.getElem?_zipWith_eq_some] at hc
  obtain ⟨name, type, -, known, rfl⟩ := hc
  refine ⟨known, ?_⟩
  rw [getElem?_typesOf fit inside] at known
  cases known
  exact inferred_columnType _

theorem decodesRow {row : List String} (hr : row ∈ rows) : DecodesRow columns row
    (List.zipWith cellValue (typesOf names.length rows) (row.rightpad names.length "")) := by
  have short := fit row hr
  refine ⟨width_eq named ▸ short, ?_, fun j column hc => ?_⟩
  · rw [List.length_zipWith, length_typesOf, width_eq named, List.length_rightpad]
    omega
  · have inside : j < names.length := width_eq named ▸ (List.getElem?_eq_some_iff.1 hc).1
    obtain ⟨known, inferred⟩ := column_type fit named hc
    refine ⟨cellValue column.type (row.getD j ""), ?_, ?_⟩
    · rw [List.getElem?_zipWith, known, getElem?_rightpad short inside]
    · have decodes := decodes_cellValue inferred (List.mem_map_of_mem hr)
      rw [List.getD] at decodes ⊢
      cases hf : row[j]? with
      | some field => rwa [hf] at decodes
      | none => exact .missing

end

theorem reads_of_layout {format : Format} {text : String} {t : Table} {names : List String}
    {rows : List (List String)} (h : read format text = .ok t)
    (laid : layout format (Text.linesOf text.toList) = .ok (names, rows)) :
    t.schema.ids = names ∧ Reads rows t := by
  obtain ⟨names, rows, found, fit, named, cells⟩ := read_eq_ok_iff.1 h
  cases laid.symm.trans found
  refine ⟨ids_eq named, ?_, fun j column hc => (column_type fit named hc).2⟩
  rw [cells, List.forall₂_map_right_iff]
  exact List.forall₂_same.2 fun row hr => decodesRow fit named hr

/-- A table that is read is what the fields of the text say. -/
theorem reads_of_read {format : Format} {text : String} {t : Table} {rows : List (List String)}
    (h : read format text = .ok t) (raw : RawRows format text rows) : Reads rows t := by
  obtain ⟨names, found, laid, -⟩ := read_eq_ok_iff.1 h
  cases (rawRows_iff.1 (rawRows_of_layout laid)).symm.trans (rawRows_iff.1 raw)
  exact (reads_of_layout h laid).2

/-- A text is read if its names can be those of a schema and no row has more fields than those. Then
it is read as those names and rows say. -/
theorem exists_read {format : Format} {text : String} {names : List String}
    {rows : List (List String)}
    (laid : layout format (Text.linesOf text.toList) = .ok (names, rows))
    (fit : ∀ row ∈ rows, row.length ≤ names.length) (nonempty : ∀ name ∈ names, name ≠ "")
    (distinct : (names.map foldCase).Nodup) :
    ∃ t, read format text = .ok t ∧ t.schema.ids = names ∧ Reads rows t := by
  obtain ⟨columns, hc⟩ : ∃ columns,
      List.zipWith Column.named names (typesOf names.length rows) = columns := ⟨_, rfl⟩
  have ids := ids_eq hc.symm
  have schema : ∃ s : Schema, s.columns = columns := by
    refine ⟨⟨columns, fun c member => ?_, ?_⟩, rfl⟩
    · exact nonempty _ (ids ▸ List.mem_map_of_mem member)
    · rw [← ids, List.map_map] at distinct
      exact distinct
  obtain ⟨s, rfl⟩ := schema
  obtain ⟨t, read⟩ : ∃ t, read format text = .ok t :=
    ⟨⟨s, _⟩, read_eq_ok_iff.2 ⟨names, rows, laid, fit, hc.symm, rfl⟩⟩
  exact ⟨t, read, reads_of_layout read laid⟩

end Crosstab.Delimited
