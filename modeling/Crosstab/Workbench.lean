import Crosstab.Query.Plan

/-!
# Workbench

Queries that are made one after the other, each on top of earlier ones, and known by their number. A
number stays the query that was made under it; so a query equals itself here, even if it holds a
constant that is not a number.
-/

namespace Crosstab

/-- A query and the numbers of the queries that its top node was built on. -/
structure Workpiece where
  query : Query
  /-- Missing for a query that was not built node by node. -/
  sources : Option (List Nat)

/-- The queries made so far; a number under which nothing could be made stays empty. -/
structure Workbench where
  pieces : Array (Option Workpiece)

namespace Workbench

def empty : Workbench := ⟨#[]⟩

/-- The next number is used. -/
def push (w : Workbench) (piece : Option Workpiece) : Workbench := ⟨w.pieces.push piece⟩

/-- What was made under a number. -/
def piece? (w : Workbench) (number : Nat) : Option Workpiece := w.pieces[number]?.join

def query? (w : Workbench) (number : Nat) : Option Query := (w.piece? number).map (·.query)

/-- Two numbers stand for equal queries: they are one number, or the queries have equal operators on
top of queries that are the same. -/
def same (w : Workbench) (a b : Nat) : Bool :=
  if a = b then true
  else match w.piece? a, w.piece? b with
    | some x, some y =>
      match x.sources, y.sources with
      | some xs, some ys =>
        x.query.plan.headEquals y.query.plan &&
          (xs.zip ys).all fun (i, j) => if _earlier : i < a then w.same i j else false
      | _, _ => x.query.equals y.query
    | _, _ => false
termination_by a

end Workbench

end Crosstab
