import Crosstab.DataType
import Crosstab.Double.Basic
import Crosstab.Operation

/-!
# SQL statements

The part of SQL that queries are written in: expressions, the tables and subqueries that a SELECT
draws from, SELECT itself and UNION.
-/

namespace Crosstab.Sql

inductive Literal
  | integer (value : Int64)
  | real (value : Double)
  | text (value : String)
  | boolean (value : Bool)
  | null
  deriving DecidableEq

/-- An operation between two expressions. -/
inductive BinaryOp
  | add
  | sub
  | mul
  | div
  | eq
  | ne
  | lt
  | le
  | gt
  | ge
  /-- Equality that holds between two nulls. -/
  | is
  | and
  | or
  deriving DecidableEq

/-- An expression over the rows of a SELECT. -/
inductive Expr
  | literal (value : Literal)
  /-- A column, with the name of the table or subquery it comes from if that is given. -/
  | column (owner : Option String) (name : String)
  | binary (left : Expr) (op : BinaryOp) (right : Expr)
  | not (operand : Expr)
  | call (function : String) (args : List Expr)
  /-- A function over all rows in an order; `true` is increasing order. -/
  | window (function : String) (args : List Expr) (keys : List (Expr × Bool))
  | cast (operand : Expr) (type : DataType)
  /-- The value of the first branch whose condition is true. -/
  | case (branches : List (Expr × Expr)) (otherwise : Option Expr)
  | isNull (operand : Expr) (negated : Bool)
  | star

/-- A column of the result, with a name of its own if one is given. -/
structure SelectItem where
  expr : Expr
  asName : Option String

mutual

inductive Statement
  | select (columns : List SelectItem) (source : Source) (condition : Option Expr)
      (groups : List Expr) (keys : List (Expr × Bool))
  /-- The rows of both statements; `all` keeps duplicates. -/
  | union (all : Bool) (left right : Statement)

/-- What a SELECT draws its rows from. -/
inductive Source
  | nothing
  | item (table : TableRef)
  | join (left : Source) (kind : JoinKind) (right : TableRef) (condition : Expr)

inductive TableRef
  | table (name : String) (asName : Option String)
  | subquery (query : Statement) (asName : String)

end

def Expr.named (name : String) : Expr := .column none name

/-- A column of a named table or subquery. -/
def Expr.qualified (owner name : String) : Expr := .column (some owner) name

def SelectItem.plain (expr : Expr) : SelectItem := ⟨expr, none⟩

/-- All rows of one table or subquery, without conditions. -/
def Statement.plain (columns : List SelectItem) (table : TableRef) : Statement :=
  .select columns (.item table) none [] []

/-- The name by which the columns of a table or subquery are qualified. -/
def TableRef.owner : TableRef → String
  | .table name asName => asName.getD name
  | .subquery _ asName => asName

end Crosstab.Sql
