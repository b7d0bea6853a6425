import Crosstab.Proofs.Query.Builders
import Crosstab.Proofs.Store.Engine

namespace Crosstab

namespace Store

variable {δ : Type} [SqlEngine δ]

/-- The columns that an import declares. -/
def declared (schema : Schema) : List StoredColumn :=
  schema.columns.map fun c => ⟨c.id, some c.type.sqlName⟩

/-- The rows that a table of those columns holds after an import. -/
def storedRows (kept : Option String → Cell → Cell) (table : Table) : List (List Cell) :=
  table.rows.map fun row => StoredTable.keptRow kept (declared table.schema) (row.map Cell.ofScalar)

def importAll (s : Store δ) (imports : List (String × Table)) : Except Error (Store δ) :=
  imports.foldlM (fun s i => (s.importTable i.1 i.2).map (·.2)) s

theorem names_declared (schema : Schema) : (declared schema).map (·.name) = schema.ids := by
  rw [declared, List.map_map]
  rfl

theorem words_declared (schema : Schema) : ∀ c ∈ declared schema, c.Worded := by
  intro c hc word hw
  obtain ⟨column, -, rfl⟩ := List.mem_map.1 hc
  cases hw
  exact ⟨column.type, rfl⟩

variable {held : δ → String → Option StoredTable} {kept : Option String → Cell → Cell}
  (lawful : SqlEngine.Lawful held kept) {s s' : Store δ} {name : String} {table : Table} {q : Query}
include lawful

theorem importTable_eq_ok (h : s.importTable name table = .ok (q, s')) :
    (∃ named : name ≠ "", q = ⟨table.schema, .table name table.schema named⟩) ∧
      Clean (name :: table.schema.ids) ∧ held s.database name = none ∧
      (∃ t, t.columns = declared table.schema ∧ t.rows = storedRows kept table ∧
        SqlEngine.Puts held s.database s'.database name t) ∧
      s'.catalog = s.catalog.replace name table.schema := by
  obtain ⟨query, built, h⟩ := bind_eq_ok_iff.1 h
  obtain ⟨after, added, h⟩ := bind_eq_ok_iff.1 h
  cases pure_eq_ok_iff.1 h
  refine ⟨Query.table_eq_ok_iff.1 (mapError_eq_ok_iff.1 built), ?_⟩
  change s.add name (declared table.schema) (table.rows.map (·.map Cell.ofScalar)) table.schema =
    .ok s' at added
  simp only [add] at added
  split at added
  · cases added
  · next database filled =>
    cases added
    obtain ⟨clean, new, -, t, columns, rows, puts⟩ :=
      lawful.fill (words_declared table.schema) filled
    rw [names_declared] at clean
    refine ⟨clean, new, ⟨t, columns, ?_, puts⟩, rfl⟩
    rw [rows, List.map_map]
    rfl

/-- Imports leave a table under its name as it is. -/
theorem held_of_importAll {imports : List (String × Table)} {t : StoredTable}
    (h : s.importAll imports = .ok s') (found : held s.database name = some t) :
    held s'.database name = some t := by
  induction imports generalizing s with
  | nil =>
    cases pure_eq_ok_iff.1 h
    exact found
  | cons first imports ih =>
    obtain ⟨next, imported, rest⟩ := bind_eq_ok_iff.1 h
    obtain ⟨⟨q, after⟩, done, rfl⟩ := map_eq_ok_iff.1 imported
    obtain ⟨-, -, new, ⟨t', -, -, puts⟩, -⟩ := importTable_eq_ok lawful done
    refine ih rest ?_
    rw [puts, if_neg, found]
    intro same
    rw [lawful.names same, found] at new
    cases new

end Store

end Crosstab
