namespace Crosstab

/-- An operation on scalars. -/
inductive Operation
  | and
  | or
  | not
  | eq
  | ne
  | lt
  | le
  | gt
  | ge
  | isNull
  | isNotNull
  | add
  | sub
  | mul
  | div
  deriving DecidableEq

namespace Operation

def all : List Operation :=
  [and, or, not, eq, ne, lt, le, gt, ge, isNull, isNotNull, add, sub, mul, div]

def tag : Operation → String
  | and => "and"
  | or => "or"
  | not => "not"
  | eq => "eq"
  | ne => "ne"
  | lt => "lt"
  | le => "le"
  | gt => "gt"
  | ge => "ge"
  | isNull => "isNull"
  | isNotNull => "isNotNull"
  | add => "add"
  | sub => "sub"
  | mul => "mul"
  | div => "div"

def label : Operation → String
  | and => "And"
  | or => "Or"
  | not => "Not"
  | eq => "Eq"
  | ne => "Ne"
  | lt => "Lt"
  | le => "Le"
  | gt => "Gt"
  | ge => "Ge"
  | isNull => "IsNull"
  | isNotNull => "IsNotNull"
  | add => "Add"
  | sub => "Sub"
  | mul => "Mul"
  | div => "Div"

def ofTag? (tag : String) : Option Operation := all.find? (·.tag == tag)

/-- Comparisons of two values. -/
def isComparison : Operation → Bool
  | eq | ne | lt | le | gt | ge => true
  | _ => false

/-- The operation takes this many operands. -/
def takes (op : Operation) (count : Nat) : Bool :=
  match op with
  | and | or => count != 0
  | not | isNull | isNotNull => count == 1
  | _ => count == 2

end Operation

/-- A function over the values of a column in one group. -/
inductive Aggregate
  | sum
  | avg
  | count
  | min
  | max
  /-- The value of the group if all its members agree, else null. -/
  | uniq
  /-- Always null. -/
  | null
  deriving DecidableEq

namespace Aggregate

def all : List Aggregate := [sum, avg, count, min, max, uniq, null]

def tag : Aggregate → String
  | sum => "sum"
  | avg => "avg"
  | count => "count"
  | min => "min"
  | max => "max"
  | uniq => "uniq"
  | null => "null"

def label : Aggregate → String
  | sum => "Sum"
  | avg => "Avg"
  | count => "Count"
  | min => "Min"
  | max => "Max"
  | uniq => "Uniq"
  | null => "Null"

def ofTag? (tag : String) : Option Aggregate := all.find? (·.tag == tag)

end Aggregate

/-- How a join treats rows of the left side that match nothing. -/
inductive JoinKind
  /-- They are dropped. -/
  | inner
  /-- They stay, with nulls for the right side. -/
  | left
  deriving DecidableEq

namespace JoinKind

def tag : JoinKind → String
  | inner => "inner"
  | left => "leftOuter"

def ofTag? (tag : String) : Option JoinKind := [inner, left].find? (·.tag == tag)

end JoinKind

/-- The operators of a query. -/
inductive Operator
  | table
  | project
  | filter
  | groupBy
  | sort
  | extend
  | mapColumns
  | mapColumnsByIndex
  | concat
  | join
  deriving DecidableEq

namespace Operator

def all : List Operator :=
  [table, project, filter, groupBy, sort, extend, mapColumns, mapColumnsByIndex, concat, join]

def tag : Operator → String
  | table => "table"
  | project => "project"
  | filter => "filter"
  | groupBy => "groupBy"
  | sort => "sort"
  | extend => "extend"
  | mapColumns => "mapColumns"
  | mapColumnsByIndex => "mapColumnsByIndex"
  | concat => "concat"
  | join => "join"

def ofTag? (tag : String) : Option Operator := all.find? (·.tag == tag)

end Operator

end Crosstab
