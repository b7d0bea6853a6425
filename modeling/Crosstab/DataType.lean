import Crosstab.Name

namespace Crosstab

/-- The type of a column. -/
inductive DataType
  | boolean
  | integer
  | real
  | text
  deriving DecidableEq

namespace DataType

def isNumeric : DataType → Bool
  | integer | real => true
  | boolean | text => false

/-- The common type of two columns, if they have one. -/
def widen (a b : DataType) : Option DataType :=
  if a = b then some a
  else match a, b with
    | integer, real | real, integer => some real
    | _, _ => none

/-- A value of the first type may be stored in a column of the second. -/
def castsTo (a b : DataType) : Bool :=
  a == b || b == text || (a == integer && b == real)

/-- The type a column gets in SQL; booleans are stored as integers. -/
def sqlName : DataType → String
  | boolean | integer => "INTEGER"
  | real => "REAL"
  | text => "TEXT"

def name : DataType → String
  | boolean => "boolean"
  | integer => "integer"
  | real => "real"
  | text => "text"

def ofExactName? : String → Option DataType
  | "boolean" => some boolean
  | "integer" => some integer
  | "real" => some real
  | "text" => some text
  | _ => none

/-- The type that a caller's name means, other spellings included. -/
def ofName? (name : String) : Option DataType :=
  match lowerAscii name with
  | "boolean" | "bool" => some boolean
  | "integer" | "int" => some integer
  | "real" | "float" | "double" => some real
  | "text" | "varchar" | "string" => some text
  | _ => none

def all : List DataType := [boolean, integer, real, text]

end DataType

end Crosstab
