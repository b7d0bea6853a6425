import Crosstab.Sql.Printer
import Crosstab.Store.Cell

/-!
# Database engines

A store hands its statements to an engine as texts, with cells bound to their parameters. What the
engine makes of them is its own matter.
-/

namespace Crosstab

/-- An engine whose databases are of a type. -/
class SqlEngine (δ : Type) where
  /-- Runs a statement that gives no rows. -/
  execute : δ → (sql : String) → (bound : List Cell) → Except EngineError δ
  /-- The rows that a statement gives. -/
  query : δ → (sql : String) → Except EngineError (List (List Cell))

/-- A column as it is declared, with the word for its type if it has one. -/
structure StoredColumn where
  name : String
  type : Option String
  deriving DecidableEq

def StoredColumn.declaration (c : StoredColumn) : String :=
  match c.type with
  | some type => Sql.quotedName c.name ++ " " ++ type
  | none => Sql.quotedName c.name

/-- The statement that makes a table. -/
def createSql (name : String) (columns : List StoredColumn) : String :=
  "CREATE TABLE " ++ Sql.quotedName name ++ " (" ++
    Sql.commaList (columns.map StoredColumn.declaration) ++ ")"

/-- The statement that adds a row to a table, with a parameter for each cell. -/
def insertSql (name : String) (width : Nat) : String :=
  "INSERT INTO " ++ Sql.quotedName name ++ " VALUES (" ++
    Sql.commaList (List.replicate width "?") ++ ")"

/-- Makes a table and adds its rows in one transaction: no database is left where a statement
fails. -/
def SqlEngine.fill {δ : Type} [SqlEngine δ] (d : δ) (name : String) (columns : List StoredColumn)
    (rows : List (List Cell)) : Except EngineError δ := do
  let made ← execute d (createSql name columns) []
  rows.foldlM (fun d row => execute d (insertSql name columns.length) row) made

end Crosstab
