import Crosstab.Proofs.Naming
import Crosstab.Proofs.Sql.Items
import Crosstab.Proofs.Sql.Writing
import Crosstab.Store

/-!
# What a store relies on

An engine is known by its statements alone. `SqlEngine.Lawful` says what each of them does to the
tables that a database holds: one statement at a time, by its text. What a whole import leaves in a
database, and what a query of a table reads from it, follows.
-/

namespace Crosstab

/-- The statement that selects columns of a table by their names. -/
def scanSql (name : String) (columns : List String) : String :=
  "SELECT " ++ Sql.commaList (columns.map Sql.quotedName) ++ " FROM " ++ Sql.quotedName name

/-- No statement can have these names. -/
def Clean (names : List String) : Prop := ∀ name ∈ names, '\x00' ∉ name.toList

instance (names : List String) : Decidable (Clean names) :=
  inferInstanceAs (Decidable (∀ name ∈ names, '\x00' ∉ name.toList))

/-- The type of a column, if it has one, is one that SQL has a word for. -/
def StoredColumn.Worded (c : StoredColumn) : Prop :=
  ∀ word ∈ c.type, ∃ type : DataType, word = type.sqlName

namespace StoredTable

/-- The column at the place has the name. -/
def IsColumn (t : StoredTable) (name : String) (place : Nat) : Prop :=
  ∃ c, t.columns[place]? = some c ∧ SameName c.name name

/-- A row as the columns keep its cells. -/
def keptRow (kept : Option String → Cell → Cell) (columns : List StoredColumn) (row : List Cell) :
    List Cell :=
  List.zipWith (fun c cell => kept c.type cell) columns row

end StoredTable

namespace SqlEngine

section
variable {δ : Type} (held : δ → String → Option StoredTable)

/-- The database `d'` holds the table under the name, and under other names what `d` holds. -/
def Puts (d d' : δ) (name : String) (t : StoredTable) : Prop :=
  ∀ other, held d' other = if SameName name other then some t else held d other

/-- What an engine does with the statements of a store. `held` is the table that a database holds
under a name, and `kept` is what a column keeps of a cell, by the word for its type. -/
structure Lawful [SqlEngine δ] (kept : Option String → Cell → Cell) : Prop where
  /-- The case of ASCII letters in a name does not matter. -/
  names {d : δ} {a b : String} (same : SameName a b) : held d a = held d b
  /-- A table is made under a name that no other has, without rows. -/
  create {d d' : δ} {name : String} {columns : List StoredColumn}
    (words : ∀ c ∈ columns, c.Worded)
    (done : execute d (createSql name columns) [] = .ok d') :
    Clean (name :: columns.map (·.name)) ∧ held d name = none ∧
      ∃ t, t.columns = columns ∧ t.rows = [] ∧ Puts held d d' name t
  /-- A row comes after those that were inserted before, with a cell for each column. -/
  insert {d d' : δ} {name : String} {t : StoredTable} {row : List Cell}
    (found : held d name = some t)
    (done : execute d (insertSql name t.columns.length) row = .ok d') :
    row.length = t.columns.length ∧ ∃ t', t'.columns = t.columns ∧
      t'.rows = t.rows ++ [StoredTable.keptRow kept t.columns row] ∧ Puts held d d' name t'
  /-- The columns of a table are read by their names, row after row. -/
  scan {d : δ} {name : String} {t : StoredTable} {names : List String} {places : List Nat}
    (found : held d name = some t) (some : names ≠ []) (narrow : names.length ≤ t.columns.length)
    (clean : Clean (name :: names)) (columns : List.Forall₂ t.IsColumn names places) :
    query d (scanSql name names) =
      .ok (t.rows.map fun row => places.map fun place => row.getD place .null)

end

section
variable {δ : Type} {held : δ → String → Option StoredTable} {d d' d'' : δ} {name : String}
  {t t' : StoredTable}

theorem Puts.self (h : Puts held d d' name t) : held d' name = some t :=
  (h name).trans (if_pos (SameName.refl name))

theorem Puts.trans (h : Puts held d d' name t) (h' : Puts held d' d'' name t') :
    Puts held d d'' name t' := by
  intro other
  rw [h', h]
  split <;> rfl

variable [SqlEngine δ] {kept : Option String → Cell → Cell} (lawful : Lawful held kept)
include lawful

/-- Rows that are inserted one after the other stand in that order. -/
theorem Lawful.insertAll {rows : List (List Cell)} (start : Puts held d d' name t)
    (done : rows.foldlM (fun d row => execute d (insertSql name t.columns.length) row) d' =
      .ok d'') :
    (∀ row ∈ rows, row.length = t.columns.length) ∧ ∃ t', t'.columns = t.columns ∧
      t'.rows = t.rows ++ rows.map (StoredTable.keptRow kept t.columns) ∧
      Puts held d d'' name t' := by
  induction rows generalizing d' t with
  | nil =>
    cases pure_eq_ok_iff.1 done
    exact ⟨List.forall_mem_nil _, t, rfl, by simp, start⟩
  | cons row rows ih =>
    obtain ⟨next, first, rest⟩ := bind_eq_ok_iff.1 done
    obtain ⟨width, t', columns, inserted, puts⟩ := lawful.insert start.self first
    rw [← columns] at rest
    obtain ⟨widths, last, same, all, whole⟩ := ih (start.trans puts) rest
    rw [columns] at widths same all
    refine ⟨List.forall_mem_cons.2 ⟨width, widths⟩, last, same, ?_, whole⟩
    rw [all, inserted, List.append_assoc]
    rfl

/-- A table that was made and filled holds the rows, as its columns keep them, in their order. -/
theorem Lawful.fill {columns : List StoredColumn} {rows : List (List Cell)}
    (words : ∀ c ∈ columns, c.Worded)
    (done : fill d name columns rows = .ok d') :
    Clean (name :: columns.map (·.name)) ∧ held d name = none ∧
      (∀ row ∈ rows, row.length = columns.length) ∧ ∃ t, t.columns = columns ∧
      t.rows = rows.map (StoredTable.keptRow kept columns) ∧ Puts held d d' name t := by
  obtain ⟨made, first, rest⟩ := bind_eq_ok_iff.1 done
  obtain ⟨clean, new, t, rfl, empty, puts⟩ := lawful.create words first
  obtain ⟨widths, t', columns, filled, whole⟩ := lawful.insertAll puts rest
  rw [empty, List.nil_append] at filled
  exact ⟨clean, new, widths, t', columns, filled, whole⟩

end

end SqlEngine

/-! ## The query of a table -/

theorem Sql.map_render_shown (s : Schema) :
    (Sql.shown s).map Sql.SelectItem.render = s.ids.map Sql.quotedName := by
  rw [Sql.shown, Schema.ids, List.map_map, List.map_map]
  rfl

/-- The query of a table compiles to the statement that selects its columns. -/
theorem Query.sql_table {name : String} {schema : Schema} (named : name ≠ "")
    (clean : Clean (name :: schema.ids)) :
    (⟨schema, .table name schema named⟩ : Query).sql = .ok (scanSql name schema.ids) := by
  have compiled := (Query.writes_sql ⟨schema, .table name schema named⟩).exists_ok_iff.2
    ⟨by simpa [Plan.spelled, Plan.ownNames, Plan.inner, Clean] using clean,
      by simp [Plan.constants, Plan.nodes, Plan.inner, Query.constants]⟩
  obtain ⟨sql, compiled⟩ := compiled
  obtain ⟨statement, made, rfl⟩ := map_eq_ok_iff.1 compiled
  obtain ⟨items, listed, rest⟩ := bind_eq_ok_iff.1 made
  obtain ⟨id, spelled, same⟩ := bind_eq_ok_iff.1 rest
  rw [compiled, ← pure_eq_ok_iff.1 same, Sql.columnItems_eq listed, Sql.eq_of_identifier spelled,
    Sql.Statement.plain, Sql.Statement.render, Sql.map_render_shown]
  simp [scanSql, Sql.Source.render, Sql.TableRef.render, Sql.whereClause, Sql.listClause,
    Sql.Expr.renderAll, Sql.Expr.renderKeys, String.append_assoc]

namespace Store

variable {δ : Type} [SqlEngine δ] {held : δ → String → Option StoredTable}
  {kept : Option String → Cell → Cell} {s : Store δ} {t : StoredTable} {schema : Schema}
  {name : String}

/-- Where the ids of a schema stand in a table that has its columns. -/
theorem forall₂_isColumn (columns : t.columns.map (·.name) = schema.ids) :
    List.Forall₂ t.IsColumn schema.ids (List.range schema.ids.length) := by
  rw [List.forall₂_iff_get]
  refine ⟨List.length_range.symm, fun i hi hj => ?_⟩
  have here : i < t.columns.length := by
    rw [← columns, List.length_map] at hi
    exact hi
  refine ⟨t.columns[i], ?_, ?_⟩
  · simp [List.getElem?_eq_getElem here]
  · simp [← columns, SameName.refl]

theorem map_getD_range {row : List Cell} {n : Nat} (wide : row.length = n) :
    (List.range n).map (fun place => row.getD place .null) = row := by
  subst wide
  refine List.ext_getElem (by simp) fun i hi hj => ?_
  rw [List.getElem_map, List.getElem_range, List.getD, List.getElem?_eq_getElem hj,
    Option.getD_some]

/-- A table that is held under the columns of a schema is read by their types. -/
theorem evaluate_table (lawful : SqlEngine.Lawful held kept) (named : name ≠ "")
    (clean : Clean (name :: schema.ids)) (found : held s.database name = some t)
    (columns : t.columns.map (·.name) = schema.ids) {rows : List (List Scalar)}
    (read : t.rows.mapM (readRow schema.columns) = .ok rows) :
    s.evaluate ⟨schema, .table name schema named⟩ = .ok ⟨schema, rows⟩ := by
  have length : t.columns.length = schema.ids.length := by rw [← columns, List.length_map]
  have some : schema.ids ≠ [] := by
    rintro none
    have wide := t.wide
    rw [length, none] at wide
    cases wide
  -- a row of another width would not have been read
  have wide : ∀ row ∈ t.rows, row.length = schema.ids.length := by
    intro row hr
    obtain ⟨values, -, fits⟩ := exists_of_mem_left (mapM_eq_ok_iff.1 read) hr
    unfold readRow at fits
    split at fits
    · next same => rw [same, Schema.ids, List.length_map]
    · cases fits
  have scanned := lawful.scan found some (Nat.le_of_eq length.symm) clean (forall₂_isColumn columns)
  have same : t.rows.map (fun row => (List.range schema.ids.length).map (row.getD · .null)) =
      t.rows := by
    conv_rhs => rw [← List.map_id t.rows]
    exact List.map_congr_left fun row hr => map_getD_range (wide row hr)
  rw [same] at scanned
  rw [evaluate, Query.sql_table named clean]
  change (Except.mapError _ (SqlEngine.query s.database (scanSql name schema.ids)) >>= _) = _
  rw [scanned]
  change (Except.mapError _ (t.rows.mapM (readRow schema.columns)) >>= _) = _
  rw [read]
  rfl

end Store

end Crosstab
