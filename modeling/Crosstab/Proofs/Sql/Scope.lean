import Mathlib.Data.List.Forall2
import Crosstab.Sql.Compile

/-!
# Names in SQL statements

What the names in a statement mean. A SELECT draws its rows from one table or subquery, or from two
that are joined; each has a name there, and columns. A reference to a column must mean exactly one
of these columns, because an engine reads a name that means none as a text.
-/

namespace Crosstab.Sql

/-! ## Inside expressions -/

namespace Expr

mutual

/-- The expressions inside an expression, at every depth. -/
def inner : Expr → List Expr
  | literal _ | column _ _ | star => []
  | binary left _ right => left :: right :: (inner left ++ inner right)
  | not operand | cast operand _ | isNull operand _ => operand :: inner operand
  | call _ args => args ++ innerAll args
  | window _ args keys => args ++ innerAll args ++ innerKeys keys
  | case branches otherwise => innerBranches branches ++ innerElse otherwise

def innerAll : List Expr → List Expr
  | [] => []
  | e :: rest => inner e ++ innerAll rest

def innerKeys : List (Expr × Bool) → List Expr
  | [] => []
  | (e, _) :: rest => e :: (inner e ++ innerKeys rest)

def innerBranches : List (Expr × Expr) → List Expr
  | [] => []
  | (condition, value) :: rest =>
    condition :: value :: (inner condition ++ inner value ++ innerBranches rest)

def innerElse : Option Expr → List Expr
  | none => []
  | some value => value :: inner value

end

def parts (e : Expr) : List Expr := e :: e.inner

/-- The columns that an expression refers to, each with its owner where one is given. -/
def references (e : Expr) : List (Option String × String) :=
  e.parts.filterMap fun
    | column owner name => some (owner, name)
    | _ => none

/-- A function over the rows of a group. -/
def IsAggregate : Expr → Prop
  | call _ _ => True
  | _ => False

/-- A function over all rows in an order. -/
def IsWindow : Expr → Prop
  | window _ _ _ => True
  | _ => False

/-- A function over several rows. -/
def OverRows (e : Expr) : Prop := e.IsAggregate ∨ e.IsWindow

/-- The value in a row depends on that row alone. -/
def Rowwise (e : Expr) : Prop := ∀ part ∈ e.parts, ¬ part.OverRows

/-- The value is the same for all rows of a group: it is made of aggregates and of expressions that
rows are grouped by. -/
inductive OfGroup (groups : List Expr) : Expr → Prop where
  | key {e : Expr} (grouped : e ∈ groups) : OfGroup groups e
  | call (function : String) (args : List Expr) : OfGroup groups (.call function args)
  | literal (value : Literal) : OfGroup groups (.literal value)
  | binary {left right : Expr} (op : BinaryOp) (l : OfGroup groups left)
      (r : OfGroup groups right) : OfGroup groups (.binary left op right)
  | not {operand : Expr} (e : OfGroup groups operand) : OfGroup groups (.not operand)
  | cast {operand : Expr} (type : DataType) (e : OfGroup groups operand) :
      OfGroup groups (.cast operand type)
  | isNull {operand : Expr} (negated : Bool) (e : OfGroup groups operand) :
      OfGroup groups (.isNull operand negated)
  | case {branches : List (Expr × Expr)} {otherwise : Option Expr}
      (conditions : ∀ b ∈ branches, OfGroup groups b.1)
      (values : ∀ b ∈ branches, OfGroup groups b.2)
      (rest : ∀ e ∈ otherwise, OfGroup groups e) : OfGroup groups (.case branches otherwise)

end Expr

/-! ## What references mean -/

/-- Exactly one of the columns has the name, in this very spelling. -/
def MeansOne (columns : List String) (name : String) : Prop :=
  columns.filter (fun c => decide (SameName c name)) = [name]

instance (columns : List String) (name : String) : Decidable (MeansOne columns name) :=
  inferInstanceAs (Decidable (_ = _))

/-- What a SELECT draws from: the name of each table or subquery, and its columns. -/
abbrev Scope := List (String × List String)

/-- A reference means exactly one column. Without an owner it is a column of the only table or
subquery; with an owner it is a column of that side of a join which has the owner's name. -/
def Scope.Resolves : Scope → Option String × String → Prop
  | [(_, columns)], (none, name) => MeansOne columns name
  | [left, right], (some owner, name) =>
    ∃ side, [left, right].filter (fun s => decide (SameName s.1 owner)) = [side] ∧
      MeansOne side.2 name
  | _, _ => False

/-- The name of a result column: its own if it has one, else that of the column it shows, else its
text. -/
def SelectItem.name (item : SelectItem) : String :=
  match item.asName, item.expr with
  | some name, _ => name
  | none, .column _ name => name
  | none, e => e.render

/-- The names of the columns of the result; those of a union come from its left side. -/
def Statement.names : Statement → List String
  | .select columns _ _ _ _ => columns.map SelectItem.name
  | .union _ left _ => left.names

/-- What a SELECT needs of its clauses, given what it draws from. -/
structure SelectWellNamed (scope : Scope) (columns : List SelectItem) (condition : Option Expr)
    (groups : List Expr) (keys : List (Expr × Bool)) : Prop where
  /-- Every reference means one column. -/
  resolved : ∀ e ∈ columns.map (·.expr) ++ condition.toList ++ groups ++ keys.map (·.1),
    ∀ r ∈ e.references, scope.Resolves r
  /-- Functions over several rows stand in the select list only. -/
  rowwise : ∀ e ∈ condition.toList ++ groups ++ keys.map (·.1), e.Rowwise
  /-- They do not stand inside each other. -/
  flat : ∀ item ∈ columns, ∀ e ∈ item.expr.parts, e.OverRows → ∀ i ∈ e.inner, ¬ i.OverRows
  /-- Where rows are grouped, each result column belongs to the group as a whole. -/
  collapsed : (groups ≠ [] ∨ ∃ item ∈ columns, ∃ e ∈ item.expr.parts, e.IsAggregate) →
    ∀ item ∈ columns, item.expr.OfGroup groups

mutual

/-- Every name in the statement is right. The list gives the tables that the statement draws from,
in the order in which they stand, with their columns. -/
inductive Statement.WellNamed : List (String × List String) → Statement → Prop where
  | select {tables : List (String × List String)} {columns : List SelectItem} {source : Source}
      {condition : Option Expr} {groups : List Expr} {keys : List (Expr × Bool)} {scope : Scope}
      (drawn : Source.WellNamed tables source scope)
      (clauses : SelectWellNamed scope columns condition groups keys) :
      Statement.WellNamed tables (.select columns source condition groups keys)
  | union {tables others : List (String × List String)} {left right : Statement} (all : Bool)
      (l : Statement.WellNamed tables left) (r : Statement.WellNamed others right)
      (same : List.Forall₂ SameName left.names right.names) :
      Statement.WellNamed (tables ++ others) (.union all left right)

inductive Source.WellNamed : List (String × List String) → Source → Scope → Prop where
  | item {tables : List (String × List String)} {table : TableRef} {columns : List String}
      (drawn : TableRef.WellNamed tables table columns) :
      Source.WellNamed tables (.item table) [(table.owner, columns)]
  | join {tables others : List (String × List String)} {left : Source} {right : TableRef}
      {condition : Expr} {scope : Scope} {columns : List String} (kind : JoinKind)
      (l : Source.WellNamed tables left scope) (r : TableRef.WellNamed others right columns)
      (resolved : ∀ ref ∈ condition.references, (scope ++ [(right.owner, columns)]).Resolves ref)
      (rowwise : condition.Rowwise) :
      Source.WellNamed (tables ++ others) (.join left kind right condition)
        (scope ++ [(right.owner, columns)])

inductive TableRef.WellNamed : List (String × List String) → TableRef → List String → Prop where
  | table (name : String) (asName : Option String) (columns : List String) :
      TableRef.WellNamed [(name, columns)] (.table name asName) columns
  | subquery {tables : List (String × List String)} {query : Statement} (asName : String)
      (inside : Statement.WellNamed tables query) :
      TableRef.WellNamed tables (.subquery query asName) query.names

end

/-! ## Aliases -/

mutual

/-- The names that a statement gives to tables and subqueries, at every depth. -/
def Statement.aliases : Statement → List String
  | .select _ source _ _ _ => source.aliases
  | .union _ left right => left.aliases ++ right.aliases

def Source.aliases : Source → List String
  | .nothing => []
  | .item table => table.aliases
  | .join left _ right _ => left.aliases ++ right.aliases

def TableRef.aliases : TableRef → List String
  | .table _ asName => asName.toList
  | .subquery query asName => asName :: query.aliases

end

/-- No two tables or subqueries of the statement have the same name. -/
def Statement.DistinctAliases (s : Statement) : Prop := (s.aliases.map foldCase).Nodup

end Crosstab.Sql

namespace Crosstab.Plan

/-- The tables that a plan draws from, from left to right, with the ids of their columns. -/
def tables {s : Schema} : Plan s → List (String × List String)
  | table name s _ => [(name, s.ids)]
  | project source .. | filter source .. | groupBy source .. | sort source .. | extend source ..
  | mapColumns source .. | mapColumnsAt source .. => source.tables
  | concat left right _ | join left right .. => left.tables ++ right.tables

end Crosstab.Plan
