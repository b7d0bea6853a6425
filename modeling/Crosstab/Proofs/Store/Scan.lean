import Crosstab.Proofs.Delimited.Reading
import Crosstab.Proofs.Double.Signs
import Crosstab.Proofs.Store.Database

/-!
# Imported tables are read back

A table whose values have the types of their columns is stored as cells, in a database of any engine
that a store can rely on, and is read back by those types, row by row and in order. Of a text, the
table has a row for every line with something in it.
-/

namespace Crosstab

/-- A value that a column of a type can have: null, or a value of the type. -/
def Scalar.IsOf (type : DataType) (v : Scalar) : Prop := v = .null ∨ v.type? = some type

/-- A row with a fitting value for every column. -/
def RowOf (columns : List Column) (row : List Scalar) : Prop :=
  List.Forall₂ (fun c v => Scalar.IsOf c.type v) columns row

/-! ## Cells -/

section
variable {type : DataType} {v : Scalar}

theorem Cell.toScalar_ofScalar (h : v.IsOf type) : (ofScalar v).toScalar type = .ok v := by
  obtain rfl | typed := h
  · rfl
  cases v with
  | null => cases typed
  | bool b =>
    cases typed
    cases b <;> rfl
  | int | real | text =>
    cases typed
    rfl

/-- An engine that keeps no sign of zeros keeps all else of a number. -/
theorem Cell.settled_ofScalar (h : v.IsOf type) (number : v ≠ .real .nan) :
    (ofScalar v).settled (some type.sqlName) = ofScalar v.unsigned := by
  cases v with
  | null | bool | int | text => rfl
  | real v =>
    obtain none | typed := h
    · cases none
    cases typed
    have known : v.isNaN = false := by
      cases v with
      | nan => exact absurd rfl number
      | infinity | finite => rfl
    simp only [ofScalar, settled, known, Bool.false_eq_true, if_false, DataType.sqlName, true_and,
      Scalar.unsigned, Double.unsigned]
    split <;> rfl

theorem Scalar.IsOf.unsigned (h : v.IsOf type) : v.unsigned.IsOf type := by
  cases v with
  | real => exact h.imp nofun id
  | null | bool | int | text => exact h

theorem RowOf.map {columns : List Column} {row : List Scalar} (h : RowOf columns row)
    {f : Scalar → Scalar} (types : ∀ type v, Scalar.IsOf type v → Scalar.IsOf type (f v)) :
    RowOf columns (row.map f) :=
  List.forall₂_map_right_iff.2 (h.imp fun _ _ fits => types _ _ fits)

end

namespace Store

section
variable {columns : List Column} {row : List Scalar}

/-- A row is read back from its cells. -/
theorem readRow_ofScalar (h : RowOf columns row) :
    readRow columns (row.map Cell.ofScalar) = .ok row := by
  rw [readRow, if_pos (by rw [List.length_map, h.length_eq])]
  induction h with
  | nil => rfl
  | cons first _ ih =>
    simp only [List.map_cons, List.zip_cons_cons, List.mapM_cons]
    rw [Cell.toScalar_ofScalar first, ih]
    rfl

theorem readRows_ofScalar {rows : List (List Scalar)} (h : ∀ row ∈ rows, RowOf columns row) :
    (rows.map (·.map Cell.ofScalar)).mapM (readRow columns) = .ok rows := by
  rw [mapM_eq_ok_iff, List.forall₂_map_left_iff, List.forall₂_same]
  exact fun row hr => readRow_ofScalar (h row hr)

/-- Columns that keep something of each value of a row keep it of the row. -/
theorem keptRow_ofScalar {kept : Option String → Cell → Cell} {f : Scalar → Scalar}
    (h : RowOf columns row) (each : ∀ pair ∈ columns.zip row,
      kept (some pair.1.type.sqlName) (Cell.ofScalar pair.2) = Cell.ofScalar (f pair.2)) :
    StoredTable.keptRow kept (columns.map fun c => ⟨c.id, some c.type.sqlName⟩)
      (row.map Cell.ofScalar) = (row.map f).map Cell.ofScalar := by
  induction h with
  | nil => rfl
  | cons first _ ih =>
    obtain ⟨here, others⟩ := List.forall_mem_cons.1 each
    exact congrArg₂ List.cons here (ih others)

end

/-! ## Tables -/

/-- What the columns keep of an imported table is read back, also after later imports. -/
theorem scan_imported {δ : Type} [SqlEngine δ] {held : δ → String → Option StoredTable}
    {kept : Option String → Cell → Cell} (lawful : SqlEngine.Lawful held kept) {s s' s'' : Store δ}
    {name : String} {t : Table} {q : Query} {later : List (String × Table)} {f : Scalar → Scalar}
    (fits : ∀ row ∈ t.rows, RowOf t.schema.columns row)
    (types : ∀ type v, Scalar.IsOf type v → Scalar.IsOf type (f v))
    (keeps : ∀ row ∈ t.rows, ∀ pair ∈ t.schema.columns.zip row,
      kept (some pair.1.type.sqlName) (Cell.ofScalar pair.2) = Cell.ofScalar (f pair.2))
    (h : s.importTable name t = .ok (q, s')) (after : s'.importAll later = .ok s'') :
    s''.evaluate q = .ok ⟨t.schema, t.rows.map (·.map f)⟩ := by
  obtain ⟨⟨named, rfl⟩, clean, -, ⟨stored, columns, rows, puts⟩, -⟩ := importTable_eq_ok lawful h
  have found := held_of_importAll lawful after puts.self
  have cells : stored.rows = (t.rows.map (·.map f)).map (·.map Cell.ofScalar) := by
    rw [rows, storedRows, List.map_map]
    exact List.map_congr_left fun row hr => keptRow_ofScalar (fits row hr) (keeps row hr)
  refine evaluate_table lawful named clean found (columns ▸ names_declared t.schema) ?_
  rw [cells]
  exact readRows_ofScalar (List.forall_mem_map.2 fun row hr => (fits row hr).map types)

end Store

/-! ## Tables that were read from a text -/

namespace Delimited

/-- What a line of fields has to do with the row that is read from it: no field is left over, and
every column has a cell. -/
structure KeepsRow (columns : List Column) (raw : List String) (row : List Scalar) : Prop where
  fits : raw.length ≤ columns.length
  width : row.length = columns.length
  cell : ∀ (j : Nat) (column : Column), columns[j]? = some column → ∃ v, row[j]? = some v ∧
    (v = .null ↔ ∀ field, raw[j]? = some field → ¬Filled field) ∧ v.IsOf column.type

theorem Decodes.null_iff {type : DataType} {field : Option String} {v : Scalar}
    (h : Decodes type field v) : v = .null ↔ ∀ f, field = some f → ¬Filled f := by
  cases h with
  | missing => simp
  | blank empty => simpa using empty
  | text filled | integer filled | real filled => simpa using filled

theorem Decodes.isOf {type : DataType} {field : Option String} {v : Scalar}
    (h : Decodes type field v) : v.IsOf type := by
  cases h with
  | missing | blank => exact .inl rfl
  | text | integer | real => exact .inr rfl

theorem DecodesRow.keepsRow {columns : List Column} {raw : List String} {row : List Scalar}
    (h : DecodesRow columns raw row) : KeepsRow columns raw row := by
  refine ⟨h.fits, h.width, fun j column hc => ?_⟩
  obtain ⟨v, hv, decodes⟩ := h.cell j column hc
  exact ⟨v, hv, decodes.null_iff, decodes.isOf⟩

theorem KeepsRow.rowOf {columns : List Column} {raw : List String} {row : List Scalar}
    (h : KeepsRow columns raw row) : RowOf columns row := by
  refine List.forall₂_iff_get.2 ⟨h.width.symm, fun j hc hr => ?_⟩
  obtain ⟨v, hv, -, fits⟩ := h.cell j columns[j] (List.getElem?_eq_getElem hc)
  rw [List.getElem?_eq_getElem hr] at hv
  cases hv
  exact fits

theorem keepsRow_of_read {format : Format} {text : String} {t : Table} {rows : List (List String)}
    (h : read format text = .ok t) (raw : RawRows format text rows) :
    List.Forall₂ (KeepsRow t.schema.columns) rows t.rows :=
  (reads_of_read h raw).cells.imp fun _ _ decodes => decodes.keepsRow

end Delimited

namespace Store

/-- The columns of a table keep its values as they are. -/
def Keeps (kept : Option String → Cell → Cell) (t : Table) : Prop :=
  ∀ row ∈ t.rows, ∀ pair ∈ t.schema.columns.zip row,
    kept (some pair.1.type.sqlName) (Cell.ofScalar pair.2) = Cell.ofScalar pair.2

instance (kept : Option String → Cell → Cell) (t : Table) : Decidable (Keeps kept t) :=
  inferInstanceAs (Decidable (∀ row ∈ t.rows, ∀ pair ∈ t.schema.columns.zip row, _ = _))

/-- Importing and scanning loses nothing. A text that is read has a row for each line that is not
blank, with one value for each column: null exactly where the field is blank or missing, and
otherwise of the column's type. A row of such values is read back from its cells, truth values
included. So if a table of such rows is imported into a database of an engine that a store can rely
on, the query of the import gives the table again, now and after later imports: as it is if the
columns keep its values, and with every zero unsigned if they keep no sign of zeros, and no value is
a real that is no number. -/
theorem importTable_scan :
    (∀ format text t, Delimited.read format text = .ok t →
      (∃ raw, Delimited.RawRows format text raw) ∧ ∀ raw, Delimited.RawRows format text raw →
        List.Forall₂ (Delimited.KeepsRow t.schema.columns) raw t.rows) ∧
    (∀ columns row, RowOf columns row → readRow columns (row.map Cell.ofScalar) = .ok row) ∧
    ∀ (δ : Type) [SqlEngine δ] (held : δ → String → Option StoredTable)
      (kept : Option String → Cell → Cell), SqlEngine.Lawful held kept →
      ∀ (s s' s'' : Store δ) (name : String) (t : Table) (q : Query)
        (later : List (String × Table)),
        ((∃ format text, Delimited.read format text = .ok t) ∨
          ∀ row ∈ t.rows, RowOf t.schema.columns row) →
        s.importTable name t = .ok (q, s') → s'.importAll later = .ok s'' →
        (Keeps kept t → s''.evaluate q = .ok t) ∧
        (kept = Cell.settled → (∀ row ∈ t.rows, ∀ v ∈ row, v ≠ .real .nan) →
          s''.evaluate q = .ok ⟨t.schema, t.rows.map (·.map Scalar.unsigned)⟩) := by
  refine ⟨fun format text t read => ⟨⟨_, Delimited.rawRows_iff.2 rfl⟩, fun raw =>
    Delimited.keepsRow_of_read read⟩, fun _ _ => readRow_ofScalar, ?_⟩
  intro δ _ held kept lawful s s' s'' name t q later origin done after
  have fits : ∀ row ∈ t.rows, RowOf t.schema.columns row := by
    obtain ⟨format, text, read⟩ | fits := origin
    · intro row hr
      have keeps := Delimited.keepsRow_of_read read (Delimited.rawRows_iff.2 rfl)
      obtain ⟨_, -, row⟩ := exists_of_mem_right keeps hr
      exact row.rowOf
    · exact fits
  constructor
  · intro keeps
    have read := scan_imported lawful fits (fun _ _ => id) keeps done after
    simpa using read
  · rintro rfl numbers
    refine scan_imported lawful fits (fun _ _ => Scalar.IsOf.unsigned) ?_ done after
    intro row hr pair hp
    have fit := (List.forall₂_iff_zip.1 (fits row hr)).2 hp
    exact Cell.settled_ofScalar fit (numbers row hr _ (List.of_mem_zip hp).2)

def rates : Table where
  schema := ⟨[.named "Name" .text, .named "Rate" .integer], by decide, by decide⟩
  rows := [[.text "Doe", .int 7], [.text "Roe", .null]]

def lows : Table where
  schema := ⟨[.named "Low" .real], by decide, by decide⟩
  rows := [[.real (.zero true)]]

theorem importTable_scan_rates : ∃ (q q' : Query) (s s' : Store Database),
    Delimited.read .default "Name,Rate\nDoe,7\n\nRoe\n" = .ok rates ∧
      Delimited.read .default "Low\n-0.0\n" = .ok lows ∧
      (⟨.default, .empty, .empty false⟩ : Store).importTable "rates" rates = .ok (q, s) ∧
      s.importTable "lows" lows = .ok (q', s') ∧ s'.evaluate q = .ok rates ∧
      s'.evaluate q' = .ok ⟨lows.schema, [[.real (.zero false)]]⟩ := by
  have readRates : Delimited.read .default "Name,Rate\nDoe,7\n\nRoe\n" = .ok rates := by
    decide +kernel
  have readLows : Delimited.read .default "Low\n-0.0\n" = .ok lows := by
    decide +kernel
  have admitRates : Admissible "rates" rates := ⟨by decide, by decide, by decide, rfl, by decide⟩
  have admitLows : Admissible "lows" lows := ⟨by decide, by decide, by decide, rfl, by decide⟩
  obtain ⟨q, s, done, writable⟩ : ∃ q s,
      (⟨.default, .empty, .empty false⟩ : Store).importTable "rates" rates = .ok (q, s) ∧
        s.database.readOnly = false := exists_importTable rfl admitRates rfl
  have new : s.database.table? "lows" = none := by
    obtain ⟨-, -, -, ⟨t, -, -, puts⟩, -⟩ := importTable_eq_ok Database.lawful done
    exact (puts "lows").trans (if_neg (by decide))
  obtain ⟨q', s', later, -⟩ := exists_importTable writable admitLows new
  have both : s.importAll [("lows", lows)] = .ok s' :=
    bind_eq_ok_iff.2 ⟨s', map_eq_ok_iff.2 ⟨_, later, rfl⟩, rfl⟩
  have scans := importTable_scan.2.2 Database _ _ Database.lawful
  obtain ⟨kept, -⟩ := scans _ _ _ _ _ _ _ (.inl ⟨_, _, readRates⟩) done both
  obtain ⟨-, unsigned⟩ := scans _ _ _ _ _ _ [] (.inl ⟨_, _, readLows⟩) later rfl
  exact ⟨q, q', s, s', readRates, readLows, done, later, kept (by decide),
    unsigned rfl (by decide)⟩

end Store

end Crosstab
