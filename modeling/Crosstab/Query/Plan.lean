import Crosstab.Query.Rules

/-!
# Plans

A plan is a tree of relational operators over tables. The type of a plan carries its schema, and
every node carries the proof that its schema follows from the schemas below it; so a plan that
exists is well formed at every node. The builders, one for each operator, fail exactly where the
schema rule of the operator fails.
-/

namespace Crosstab

/-- A tree of operators, by the schema of the rows it yields. -/
inductive Plan : Schema → Type
  /-- All rows of a table. -/
  | table (name : String) (schema : Schema) (named : name ≠ "") : Plan schema
  /-- Some columns, in an order. -/
  | project {s t : Schema} (source : Plan s) (columns : List String)
      (derived : s.project columns = .ok t) : Plan t
  /-- The rows for which a predicate is true. -/
  | filter {s : Schema} (source : Plan s) (predicate : Expr)
      (checked : s.checkPredicate predicate = .ok ()) : Plan s
  /-- One row for each group, with aggregates. -/
  | groupBy {s t : Schema} (source : Plan s) (columns : List String)
      (aggregates : List AggregateColumn) (derived : s.groupBy columns aggregates = .ok t) : Plan t
  /-- The rows in order. -/
  | sort {s : Schema} (source : Plan s) (keys : List SortKey)
      (checked : s.checkSort keys = .ok ()) : Plan s
  /-- One more column. -/
  | extend {s t : Schema} (source : Plan s) (column : String) (type : DataType) (value : Expr)
      (derived : s.extend column type value = .ok t) : Plan t
  /-- New names for columns found by name. -/
  | mapColumns {s t : Schema} (source : Plan s) (mapping : OrderedMap String Renaming)
      (derived : s.mapColumns mapping = .ok t) : Plan t
  /-- New names for columns given by position. -/
  | mapColumnsAt {s t : Schema} (source : Plan s) (mapping : OrderedMap Nat Renaming)
      (derived : s.mapColumnsAt mapping = .ok t) : Plan t
  /-- All rows of two plans. -/
  | concat {s r t : Schema} (left : Plan s) (right : Plan r) (derived : s.concat r = .ok t) : Plan t
  /-- Pairs of rows that agree on key columns. If it is null safe, a null agrees with a null. -/
  | join {s r t : Schema} (left : Plan s) (right : Plan r) (keys : List String) (kind : JoinKind)
      (nullSafe : Bool) (derived : s.join r keys = .ok t) : Plan t

/-- A plan and the schema of its rows. -/
structure Query where
  schema : Schema
  plan : Plan schema

/-- An aggregate as a caller gives it. -/
inductive AggregateRequest
  /-- The default aggregate of the column's type. -/
  | ofColumn (column : String)
  | explicit (aggregate : AggregateColumn)

namespace Query

/-- The query of a node whose schema a rule gives. -/
def derive {ε : Type} (rule : Except ε Schema) (node : ∀ t, rule = .ok t → Plan t) :
    Except ε Query :=
  match rule, node with
  | .ok t, node => .ok ⟨t, node t rfl⟩
  | .error e, _ => .error e

theorem derive_eq_ok_iff {ε : Type} {rule : Except ε Schema} {node : ∀ t, rule = .ok t → Plan t}
    {q : Query} : derive rule node = .ok q ↔ ∃ t, ∃ h : rule = .ok t, q = ⟨t, node t h⟩ := by
  cases rule with
  | error e => simp [derive]
  | ok t =>
    constructor
    · intro e; cases e; exact ⟨t, rfl, rfl⟩
    · rintro ⟨t', h, rfl⟩; cases h; rfl

def table (name : String) (schema : Schema) : Except BuildError Query :=
  if h : name = "" then .error .emptyTableName else .ok ⟨schema, .table name schema h⟩

/-- Some columns, in an order. -/
def project (q : Query) (columns : List String) : Except BuildError Query :=
  derive (q.schema.project columns) fun _ h => .project q.plan columns h

def filter (q : Query) (predicate : Expr) : Except Error Query :=
  match h : q.schema.checkPredicate predicate with
  | .ok () => .ok ⟨q.schema, .filter q.plan predicate h⟩
  | .error e => .error e

/-- One row for each group. -/
def groupBy (q : Query) (columns : List String) (aggregates : List AggregateColumn) :
    Except BuildError Query :=
  derive (q.schema.groupBy columns aggregates) fun _ h => .groupBy q.plan columns aggregates h

/-- The aggregate that a caller's request means for the columns of a schema. -/
def resolveAggregate (s : Schema) : AggregateRequest → Except BuildError AggregateColumn
  | .explicit a => .ok a
  | .ofColumn name => do
    let c ← s.lookup .groupBy name
    return ⟨Aggregate.default c.type, c.id⟩

/-- One row for each group, with default aggregates where only a column is named. -/
def groupByRequests (q : Query) (columns : List String) (requests : List AggregateRequest) :
    Except BuildError Query := do
  q.groupBy columns (← requests.mapM (resolveAggregate q.schema))

def sort (q : Query) (keys : List SortKey) : Except BuildError Query :=
  match h : q.schema.checkSort keys with
  | .ok () => .ok ⟨q.schema, .sort q.plan keys h⟩
  | .error e => .error e

def extend (q : Query) (column : String) (type : DataType) (value : Expr) : Except Error Query :=
  derive (q.schema.extend column type value) fun _ h => .extend q.plan column type value h

/-- New names for columns found by name. -/
def mapColumns (q : Query) (mapping : OrderedMap String Renaming) : Except BuildError Query :=
  derive (q.schema.mapColumns mapping) fun _ h => .mapColumns q.plan mapping h

/-- New names for columns given by position. -/
def mapColumnsAt (q : Query) (mapping : OrderedMap Nat Renaming) : Except BuildError Query :=
  derive (q.schema.mapColumnsAt mapping) fun _ h => .mapColumnsAt q.plan mapping h

/-- All rows of two queries. -/
def concat (q other : Query) : Except BuildError Query :=
  derive (q.schema.concat other.schema) fun _ h => .concat q.plan other.plan h

/-- Pairs of rows that agree on key columns. -/
def join (q other : Query) (keys : List String) (kind : JoinKind) (nullSafe : Bool) :
    Except BuildError Query :=
  derive (q.schema.join other.schema keys) fun _ h => .join q.plan other.plan keys kind nullSafe h

end Query

/-! ## Equality -/

namespace Plan

/-- The plans have the same operator at the top, with equal parameters. -/
def headEquals {s t : Schema} : Plan s → Plan t → Bool
  | table n s _, table m t _ => n == m && s == t
  | project _ c _, project _ d _ => c == d
  | filter _ p _, filter _ q _ => p.equals q
  | groupBy _ c a _, groupBy _ d b _ => c == d && a == b
  | sort _ k _, sort _ l _ => k == l
  | extend _ c t v _, extend _ d u w _ => c == d && t == u && v.equals w
  | mapColumns _ m _, mapColumns _ n _ => m == n
  | mapColumnsAt _ m _, mapColumnsAt _ n _ => m == n
  | concat _ _ _, concat _ _ _ => true
  | join _ _ k i n _, join _ _ l j m _ => k == l && i == j && n == m
  | _, _ => false

def equals {s t : Schema} : Plan s → Plan t → Bool
  | a@(table ..), b => a.headEquals b
  | a@(project q ..), b@(project r ..) | a@(filter q ..), b@(filter r ..)
  | a@(groupBy q ..), b@(groupBy r ..) | a@(sort q ..), b@(sort r ..)
  | a@(extend q ..), b@(extend r ..) | a@(mapColumns q ..), b@(mapColumns r ..)
  | a@(mapColumnsAt q ..), b@(mapColumnsAt r ..) => a.headEquals b && q.equals r
  | concat p q _, concat r s _ => p.equals r && q.equals s
  | a@(join p q ..), b@(join r s ..) => a.headEquals b && p.equals r && q.equals s
  | _, _ => false

end Plan

def Query.equals (q r : Query) : Bool := q.plan.equals r.plan

end Crosstab
