import Crosstab.Name
import Crosstab.Sql.Reader
import Crosstab.Store.Engine

/-!
# Databases in memory

An engine for the statements that a store makes of whole tables: tables are made and filled, their
columns are read by name and their rows are counted. It refuses every other statement.
-/

namespace Crosstab

/-- The greatest number of columns of a table, and of a query. -/
def maxColumns : Nat := 2000

def isWidth (count : Nat) : Bool := 0 < count && count ≤ maxColumns

/-- A table, with its rows in the order in which they were inserted. -/
structure StoredTable where
  columns : List StoredColumn
  rows : List (List Cell)
  wide : isWidth columns.length = true
  distinct : (columns.map fun c => foldCase c.name).Nodup
  deriving DecidableEq

namespace StoredTable

/-- The names under which the number of a row can be read where no column has them. -/
def rowNumberNames : List String := ["rowid", "oid", "_rowid_"]

/-- What a quoted name means in the row with a number: a column, else the number of the row, else
the name itself as a text. -/
def lookup (t : StoredTable) (name : String) (number : Nat) (row : List Cell) : Cell :=
  match t.columns.findIdx? fun c => decide (SameName c.name name) with
  | some i => row.getD i .null
  | none =>
    if lowerAscii name ∈ rowNumberNames then .integer (Int64.ofNat number) else .text name

/-- What quoted names mean in every row. -/
def select (t : StoredTable) (names : List String) : List (List Cell) :=
  t.rows.zipIdx.map fun (row, i) => names.map fun name => t.lookup name (i + 1) row

/-- The table with one more row, as its columns keep the cells. -/
def insert (t : StoredTable) (row : List Cell) : StoredTable :=
  { t with rows := t.rows ++ [List.zipWith (fun c cell => Cell.settled c.type cell) t.columns row] }

end StoredTable

/-! ## Statements -/

/-- A statement over a whole table. -/
inductive TableStatement
  | create (name : String) (columns : List StoredColumn)
  | insert (name : String) (width : Nat)
  | scan (name : String) (columns : List String)
  | count (name : String) (columns : List String)
  deriving DecidableEq

namespace TableStatement

open Sql (Reader after readList readOptional readQuoted readWhile)

/-- A word in capital letters. -/
def readWord : Reader String := fun cs =>
  let (word, rest) := readWhile Char.isUpper cs
  if word = [] then none else some (String.ofList word, rest)

def readDeclaration : Reader StoredColumn := fun cs => do
  let (name, rest) ← readQuoted '"' cs
  let (type, rest) ← readOptional " " readWord rest
  return (⟨name, type⟩, rest)

def readParameter : Reader Unit := fun cs => (after "?" cs).map fun rest => ((), rest)

/-- The columns that are selected, and the table. -/
def readScan (fuel : Nat) : Reader (String × List String) := fun cs => do
  let (columns, rest) ← readList (readQuoted '"') fuel (← after "SELECT " cs)
  let (name, rest) ← readQuoted '"' (← after " FROM " rest)
  return ((name, columns), rest)

def readCreate (fuel : Nat) : Reader TableStatement := fun cs => do
  let (name, rest) ← readQuoted '"' (← after "CREATE TABLE " cs)
  let (columns, rest) ← readList readDeclaration fuel (← after " (" rest)
  return (create name columns, ← after ")" rest)

def readInsert (fuel : Nat) : Reader TableStatement := fun cs => do
  let (name, rest) ← readQuoted '"' (← after "INSERT INTO " cs)
  let (parameters, rest) ← readList readParameter fuel (← after " VALUES (" rest)
  return (insert name parameters.length, ← after ")" rest)

def readCount (fuel : Nat) : Reader TableStatement := fun cs => do
  let ((name, columns), rest) ← readScan fuel (← after "SELECT count(*) AS \"rowCount\" FROM (" cs)
  let (_, rest) ← readQuoted '"' (← after ") AS " rest)
  return (count name columns, rest)

def read (fuel : Nat) : Reader TableStatement := fun cs =>
  (readCreate fuel cs).or <| (readInsert fuel cs).or <| (readCount fuel cs).or <|
    (readScan fuel cs).map fun ((name, columns), rest) => (scan name columns, rest)

/-- The statement that a text is. No statement has a NUL. -/
def ofSql (sql : String) : Option TableStatement :=
  if '\x00' ∈ sql.toList then none
  else match read sql.toList.length sql.toList with
    | some (statement, []) => some statement
    | _ => none

end TableStatement

/-! ## Databases -/

/-- Stored tables, by name. -/
structure Database where
  tables : List (String × StoredTable)
  readOnly : Bool
  deriving DecidableEq

namespace Database

def empty (readOnly : Bool) : Database := ⟨[], readOnly⟩

def table? (d : Database) (name : String) : Option StoredTable :=
  (d.tables.find? fun t => decide (SameName t.1 name)).map (·.2)

/-- A name that the engine keeps for its own tables. -/
def isOwnName (name : String) : Bool := "sqlite_".toList.isPrefixOf (foldCase name)

def create (d : Database) (name : String) (columns : List StoredColumn) :
    Except EngineError Database :=
  if h : isWidth columns.length = true ∧ (columns.map fun c => foldCase c.name).Nodup then
    if isOwnName name || (d.table? name).isSome then .error .refused
    else .ok { d with tables := d.tables ++ [(name, ⟨columns, [], h.1, h.2⟩)] }
  else .error .refused

def insert (d : Database) (name : String) (width : Nat) (row : List Cell) :
    Except EngineError Database :=
  match d.table? name with
  | none => .error .refused
  | some t =>
    if row.length = width ∧ width = t.columns.length then
      .ok { d with tables := d.tables.map fun t =>
        (t.1, if SameName t.1 name then t.2.insert row else t.2) }
    else .error .refused

/-- The rows of a table by the names of columns. -/
def select (d : Database) (name : String) (columns : List String) :
    Except EngineError (List (List Cell)) :=
  match d.table? name with
  | some t => if isWidth columns.length then .ok (t.select columns) else .error .refused
  | none => .error .refused

def execute (d : Database) (sql : String) (bound : List Cell) : Except EngineError Database :=
  if d.readOnly then .error .refused
  else match TableStatement.ofSql sql, bound with
    | some (.create name columns), [] => d.create name columns
    | some (.insert name width), row => d.insert name width row
    | _, _ => .error .refused

def query (d : Database) (sql : String) : Except EngineError (List (List Cell)) :=
  match TableStatement.ofSql sql with
  | some (.scan name columns) => d.select name columns
  | some (.count name columns) =>
    (d.select name columns).map fun rows => [[.integer (Int64.ofNat rows.length)]]
  | _ => .error .refused

instance : SqlEngine Database := ⟨execute, query⟩

end Database

end Crosstab
