import Crosstab.Double.Layout
import Crosstab.Sql.Statement

/-!
# The text of SQL statements

Every operation is written in parentheses, every name between double quotes and every text between
single quotes, with the quote itself doubled inside; so a name or a text never ends early.
-/

namespace Crosstab.Sql

/-- A text in which each quote is written twice. -/
def doubled (quote : Char) : List Char → List Char
  | [] => []
  | c :: rest => if c = quote then quote :: quote :: doubled quote rest else c :: doubled quote rest

/-- A text between quotes. -/
def quoted (quote : Char) (s : String) : String :=
  String.ofList (quote :: (doubled quote s.toList ++ [quote]))

def quotedName (name : String) : String := quoted '"' name

def quotedText (s : String) : String := quoted '\'' s

def commaList (parts : List String) : String := ", ".intercalate parts

def BinaryOp.sign : BinaryOp → String
  | add => "+"
  | sub => "-"
  | mul => "*"
  | div => "/"
  | eq => "="
  | ne => "<>"
  | lt => "<"
  | le => "<="
  | gt => ">"
  | ge => ">="
  | is => "IS"
  | and => "AND"
  | or => "OR"

/-- A constant; truth values are integers. -/
def Literal.render : Literal → String
  | integer i => toString i.toInt
  | real v => v.literal
  | text s => quotedText s
  | boolean b => if b then "1" else "0"
  | null => "NULL"

def directionText (ascending : Bool) : String := if ascending then "ASC" else "DESC"

namespace Expr

mutual

def render : Expr → String
  | literal value => value.render
  | column none name => quotedName name
  | column (some owner) name => quotedName owner ++ "." ++ quotedName name
  | binary left op right => "(" ++ render left ++ " " ++ op.sign ++ " " ++ render right ++ ")"
  | not operand => "(NOT " ++ render operand ++ ")"
  | call function args => function ++ "(" ++ commaList (renderAll args) ++ ")"
  | window function args keys =>
    function ++ "(" ++ commaList (renderAll args) ++ ") OVER (ORDER BY " ++
      commaList (renderKeys keys) ++ ")"
  | cast operand type => "CAST(" ++ render operand ++ " AS " ++ type.sqlName ++ ")"
  | case branches otherwise => "CASE" ++ renderBranches branches ++ renderElse otherwise ++ " END"
  | isNull operand negated =>
    "(" ++ render operand ++ (if negated then " IS NOT NULL)" else " IS NULL)")
  | star => "*"

def renderAll : List Expr → List String
  | [] => []
  | e :: rest => render e :: renderAll rest

def renderKeys : List (Expr × Bool) → List String
  | [] => []
  | (e, ascending) :: rest => (render e ++ " " ++ directionText ascending) :: renderKeys rest

def renderBranches : List (Expr × Expr) → String
  | [] => ""
  | (condition, value) :: rest =>
    " WHEN " ++ render condition ++ " THEN " ++ render value ++ renderBranches rest

def renderElse : Option Expr → String
  | none => ""
  | some value => " ELSE " ++ render value

end

end Expr

def SelectItem.render (item : SelectItem) : String :=
  match item.asName with
  | none => item.expr.render
  | some asName => item.expr.render ++ " AS " ++ quotedName asName

/-- The words that join two sources. -/
def joinText : JoinKind → String
  | .inner => "INNER JOIN"
  | .left => "LEFT OUTER JOIN"

/-- A clause that is left out when its list is empty. -/
def listClause (keyword : String) (parts : List String) : String :=
  if parts.isEmpty then "" else keyword ++ commaList parts

/-- The WHERE clause, if there is a condition. -/
def whereClause : Option Expr → String
  | none => ""
  | some condition => " WHERE " ++ condition.render

mutual

def Statement.render : Statement → String
  | .select columns source condition groups keys =>
    "SELECT " ++ commaList (columns.map SelectItem.render) ++ source.render ++
      whereClause condition ++ listClause " GROUP BY " (Expr.renderAll groups) ++
      listClause " ORDER BY " (Expr.renderKeys keys)
  | .union all left right =>
    left.render ++ (if all then " UNION ALL " else " UNION ") ++ right.render

def Source.render : Source → String
  | .nothing => ""
  | .item table => " FROM " ++ table.render
  | .join left kind right condition =>
    left.render ++ " " ++ joinText kind ++ " " ++ right.render ++ " ON " ++ condition.render

def TableRef.render : TableRef → String
  | .table name none => quotedName name
  | .table name (some asName) => quotedName name ++ " AS " ++ quotedName asName
  | .subquery query asName => "(" ++ query.render ++ ") AS " ++ quotedName asName

end

end Crosstab.Sql
