import Crosstab.Catalog
import Crosstab.Delimited
import Crosstab.Pivot.Session
import Crosstab.Sql.Compile
import Crosstab.Store.Database

/-!
# Stores

A store keeps tables in a database and knows their schemas from a catalog. It asks the engine of the
database for the rows of a query by the text that the query compiles to, and reads the cells by the
types of the query's schema.
-/

namespace Crosstab

structure StoreOptions where
  /-- A file; without one the store is private and in memory. -/
  path : Option String
  /-- Statements are worth a log entry. -/
  showQueries : Bool
  readOnly : Bool
  deriving DecidableEq

def StoreOptions.default : StoreOptions := ⟨none, false, false⟩

/-- A store over a database. -/
structure Store (δ : Type := Database) where
  options : StoreOptions
  catalog : Catalog
  database : δ

namespace Store

/-- A store without tables. Only stores in memory can be opened. -/
def start (options : StoreOptions) : Except IoError Store :=
  match options.path with
  | some _ => .error .cannotOpen
  | none => .ok ⟨options, .empty, .empty options.readOnly⟩

/-- A row of cells by the types of the columns; the first cell that does not fit counts. -/
def readRow (columns : List Column) (row : List Cell) : Except EngineError (List Scalar) :=
  if row.length = columns.length then
    (columns.zip row).mapM fun (c, cell) => (cell.toScalar c.type).mapError (.cell c.id)
  else .error (.width row.length columns.length)

/-- The number that the first cell of an answer is. -/
def readCount (rows : List (List Cell)) : Except EngineError Nat :=
  match rows.head?.bind List.head? with
  | none => .error (.rowCount "None")
  | some cell =>
    match cell with
    | .integer i =>
      if 0 ≤ i.toInt then .ok i.toInt.toNat else .error (.rowCount s!"Some({cell.shown})")
    | _ => .error (.rowCount s!"Some({cell.shown})")

section
variable {δ : Type} (s : Store δ)

/-- How the store is shown. -/
def describe : String :=
  let place := s.options.path.getD ":memory:"
  s!"SqliteConnection({place})"

/-- Makes a table known without storing anything. -/
def register (name : String) (schema : Schema) : Store δ :=
  { s with catalog := s.catalog.replace name schema }

def tableNames : List String := s.catalog.names

/-- The query for all rows of a known table. -/
def tableQuery (name : String) : Except Error Query :=
  match s.catalog.get? name with
  | some entry => (Query.table entry.name entry.schema).mapError .build
  | none => .error (.build (.unknownTable name))

variable [SqlEngine δ]

/-- Stores a table under its schema. -/
def add (name : String) (columns : List StoredColumn) (rows : List (List Cell)) (schema : Schema) :
    Except Error (Store δ) :=
  match SqlEngine.fill s.database name columns rows with
  | .error e => .error (.eval e (createSql name columns))
  | .ok database => .ok ({ s with database }.register name schema)

/-- Stores a table whose cells have the types of their columns; the query that reads it. -/
def importTable (name : String) (table : Table) : Except Error (Query × Store δ) := do
  let query ← (Query.table name table.schema).mapError .build
  let columns := table.schema.columns.map fun c => ⟨c.id, some c.type.sqlName⟩
  let rows := table.rows.map (·.map Cell.ofScalar)
  return (query, ← s.add name columns rows table.schema)

/-- Stores the table of a delimited text. -/
def importText (format : Delimited.Format) (name text : String) :
    Except Error (Query × Store δ) := do
  s.importTable name (← Delimited.read format text)

/-- Stores cells just as they are, in columns without a type; the number of rows. -/
def load (name : String) (schema : Schema) (rows : List (List Cell)) :
    Except Error (Nat × Store δ) := do
  let columns := schema.columns.map fun c => ⟨c.id, none⟩
  return (rows.length, ← s.add name columns rows schema)

def evaluate (q : Query) : Except Error Table := do
  let sql ← q.sql.mapError .compile
  let rows ← (SqlEngine.query s.database sql).mapError (.eval · sql)
  return ⟨q.schema, ← (rows.mapM (readRow q.schema.columns)).mapError (.eval · sql)⟩

def count (q : Query) : Except Error Nat := do
  let sql ← q.countSql.mapError .compile
  let rows ← (SqlEngine.query s.database sql).mapError (.eval · sql)
  (readCount rows).mapError (.eval · sql)

/-- The store as something that a session asks. -/
def connection : Connection Id := ⟨s.evaluate⟩

end

end Store

end Crosstab
