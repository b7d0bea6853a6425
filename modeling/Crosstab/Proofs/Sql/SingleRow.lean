import Crosstab.Proofs.Query.Unsigned
import Crosstab.Proofs.Sql.Correctness

/-!
# Grouping by nothing

A SELECT without a GROUP BY clause has one row if its select list calls a function over the rows of
a group, and one row for each row that it draws otherwise. So a grouping by nothing has one row
unless all its aggregates are always null.
-/

namespace Crosstab

namespace Sql

/-! ## Subqueries -/

mutual

/-- A statement and the subqueries in it, at every depth. -/
def Statement.parts : Statement → List Statement
  | .select columns source condition groups keys =>
    .select columns source condition groups keys :: source.parts
  | .union all left right => .union all left right :: (left.parts ++ right.parts)

def Source.parts : Source → List Statement
  | .nothing => []
  | .item table => table.parts
  | .join left _ right _ => left.parts ++ right.parts

def TableRef.parts : TableRef → List Statement
  | .table _ _ => []
  | .subquery query _ => query.parts

end

theorem Statement.self_mem_parts (st : Statement) : st ∈ st.parts := by
  cases st <;> exact List.mem_cons_self

section
variable {columns : List SelectItem} {condition : Option Expr} {groups : List Expr}
  {keys : List (Expr × Bool)}

theorem parts_subset_select (source : Source) :
    source.parts ⊆ (Statement.select columns source condition groups keys).parts :=
  List.subset_cons_self _ _

theorem parts_subset_left (all : Bool) (left right : Statement) :
    left.parts ⊆ (Statement.union all left right).parts :=
  List.subset_cons_of_subset _ (List.subset_append_left _ _)

theorem parts_subset_right (all : Bool) (left right : Statement) :
    right.parts ⊆ (Statement.union all left right).parts :=
  List.subset_cons_of_subset _ (List.subset_append_right _ _)

end

/-! ## Statements of groupings by nothing -/

/-- A SELECT without a GROUP BY clause, which calls a function over the rows of a group exactly if one
of the aggregates is not always null. -/
def Statement.GroupsAll (aggregates : List AggregateColumn) (ref : TableRef) (st : Statement) : Prop :=
  ∃ items, st = .select items (.item ref) none [] [] ∧
    (CallsAggregate items ↔ ∃ a ∈ aggregates, a.func ≠ .null)

/-- The statement has one row if one of the aggregates is not always null, and one for each row that
it draws otherwise. -/
def Statement.CountsAll {V : Type} (E : Engine V) (db : Tables V)
    (aggregates : List AggregateColumn) (ref : TableRef) (st : Statement) : Prop :=
  ∃ names drawn out, ref.rows E db = some (names, drawn) ∧ st.rows E db = some out ∧
    out.length = if ∃ a ∈ aggregates, a.func ≠ .null then 1 else drawn.length

end Sql

open Sql

namespace Plan

/-- What is drawn from is a table or a subquery. -/
theorem DrawsFrom.table_or_subquery {s : Schema} {p : Plan s} {number : Nat} {ref : TableRef}
    (h : p.DrawsFrom number ref) : p.children = [] ∨
      ∃ st, p.statement (number + 1) = .ok st ∧ ref = .subquery st (aliasName number) := by
  cases h with
  | table => exact .inl rfl
  | statement compiled => exact .inr ⟨_, compiled, rfl⟩

/-- A statement has the parts of what it draws from. -/
theorem Emits.child {s : Schema} {p : Plan s} {next : Nat} {st : Statement} (h : p.Emits next st) :
    ∀ child ∈ p.children, ∃ number ref, child.plan.DrawsFrom number ref ∧ ref.parts ⊆ st.parts := by
  cases h with
  | table => exact List.forall_mem_nil _
  | project drawn | filter drawn _ | groupBy drawn _ _ | sort drawn _ | extend drawn _
  | mapColumns drawn _ | mapColumnsAt drawn _ =>
    exact List.forall_mem_singleton.2 ⟨_, _, drawn, parts_subset_select (.item _)⟩
  | concat left right =>
    refine List.forall_mem_cons.2 ⟨⟨_, _, left, ?_⟩, List.forall_mem_singleton.2 ⟨_, _, right, ?_⟩⟩
    · exact List.Subset.trans (parts_subset_select (.item _)) (parts_subset_left true _ _)
    · exact List.Subset.trans (parts_subset_select (.item _)) (parts_subset_right true _ _)
  | join left right _ _ =>
    refine List.forall_mem_cons.2 ⟨⟨_, _, left, ?_⟩, List.forall_mem_singleton.2 ⟨_, _, right, ?_⟩⟩
    · exact List.subset_cons_of_subset _ (List.subset_append_left _ _)
    · exact List.subset_cons_of_subset _ (List.subset_append_right _ _)

/-- Every node of a plan that is not a table has its statement among the parts of the plan's. -/
theorem exists_part {s : Schema} (p : Plan s) {next : Nat} {st : Statement}
    (h : p.statement next = .ok st) {node : Query} (mem : node ∈ p.nodes)
    (composed : node.plan.children ≠ []) :
    ∃ number, ∃ part ∈ st.parts, node.plan.statement number = .ok part := by
  -- All parts of a node's statement, not just the statement itself: so it passes to the children.
  have reached := nodes_closed (P := fun q => q.plan.children = [] ∨ ∃ number part,
      q.plan.statement number = .ok part ∧ part.parts ⊆ st.parts)
    (fun q found child below => ?_) p (.inr ⟨next, st, h, List.Subset.refl _⟩) node mem
  · obtain ⟨number, part, compiled, sub⟩ := reached.resolve_left composed
    exact ⟨number, part, sub part.self_mem_parts, compiled⟩
  · have inside := found.resolve_left (List.ne_nil_of_mem below)
    obtain ⟨number, part, compiled, sub⟩ := inside
    obtain ⟨number, ref, drawn, inner⟩ := (emits_of_statement compiled).child child below
    refine drawn.table_or_subquery.imp_right fun ⟨st, compiled, same⟩ => ?_
    rw [same] at inner
    exact ⟨_, st, compiled, List.Subset.trans inner sub⟩

theorem tables_subset {s : Schema} (p : Plan s) :
    ∀ node ∈ p.nodes, node.plan.tables ⊆ p.tables := by
  refine nodes_closed (P := fun q => q.plan.tables ⊆ p.tables) (fun q sub child below => ?_) p
    (List.Subset.refl _)
  refine List.Subset.trans ?_ sub
  obtain ⟨s, plan⟩ := q
  cases plan with
  | table => cases below
  | project | filter | groupBy | sort | extend | mapColumns | mapColumnsAt =>
    rw [List.mem_singleton.1 below]
    exact List.Subset.refl _
  | concat | join =>
    obtain rfl | below := List.mem_cons.1 below
    · exact List.subset_append_left _ _
    · rw [List.mem_singleton.1 below]
      exact List.subset_append_right _ _

variable {V : Type} {E : Engine V} {db : Tables V}

/-- The aggregates of all rows that a child serves are one row, or as many rows as the child has. -/
theorem rows_ungrouped {s : Schema} {ref : TableRef} {names : List String}
    {drawn rows : List (List V)} (serves : Serves E db s ref names drawn rows)
    {aggregates : List AggregateColumn} {rest : List SelectItem}
    (h : aggregates.mapM (aggregateItem s) = .ok rest) :
    ∃ out, (Statement.select rest (.item ref) none [] []).rows E db = some out ∧
      out.length = if ∃ a ∈ aggregates, a.func ≠ .null then 1 else rows.length := by
  by_cases some : ∃ a ∈ aggregates, a.func ≠ .null
  · have ungrouped : groupColumns s [] = .ok [] := rfl
    refine ⟨_, rows_groupBy serves (.inr some) ungrouped h, ?_⟩
    rw [if_pos some]
    rfl
  · have nulls : ∀ a ∈ aggregates, a.func = .null := by
      intro a ha
      by_contra func
      exact some ⟨a, ha, func⟩
    refine ⟨_, rows_nulls serves h nulls, ?_⟩
    rw [if_neg some, List.length_map]

/-- How a grouping by nothing is written, and how many rows it has where its tables are stored. -/
theorem groupsAll_of_head {s : Schema} {p : Plan s} {aggregates : List AggregateColumn}
    (head : p.head = .groupBy [] aggregates) {number : Nat} {st : Statement}
    (h : p.statement number = .ok st) :
    ∃ ref, st.GroupsAll aggregates ref ∧ (p.StoredIn db → st.CountsAll E db aggregates ref) := by
  cases p with
  | groupBy source columns others derived =>
    cases head
    obtain ⟨rest, ref, rfl, child, aggregated⟩ := select_of_groupBy h
    refine ⟨ref, ⟨rest, rfl, callsAggregate_aggregates aggregated⟩, fun stored => ?_⟩
    obtain ⟨names, drawn, rows, serves, -⟩ :=
      child.serves (E := E) stored fun st hs => source.exists_rows _ st hs stored
    obtain ⟨out, found, count⟩ := rows_ungrouped serves aggregated
    rw [← serves.related.length_eq] at count
    exact ⟨names, drawn, out, serves.draws, found, count⟩
  | _ => cases head

end Plan

end Crosstab
