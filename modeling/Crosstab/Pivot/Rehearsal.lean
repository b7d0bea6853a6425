import Crosstab.Pivot.Session
import Crosstab.Sql.Compile

/-!
# Rehearsals

A connection without data, to see what a session asks for. It compiles every query that it is asked,
and answers with as many rows of nulls as it was asked queries so far, or with an error that the
caller chooses.
-/

namespace Crosstab

/-- What a rehearsal has seen. -/
structure Rehearsal where
  /-- The number of queries that were asked. -/
  asked : Nat
  /-- The SQL text of the last query, if it has one. -/
  sql : Option String
  deriving DecidableEq

namespace Rehearsal

/-- The connection of a rehearsal; with a fault, that is the answer to every query that compiles. -/
def connection (fault : Option Error) : Connection (StateM Rehearsal) where
  evaluate query := do
    let asked := (← get).asked + 1
    set (⟨asked, query.sql.toOption⟩ : Rehearsal)
    match query.sql, fault with
    | .error e, _ => return .error (.compile e)
    | .ok _, some e => return .error e
    | .ok _, none =>
      let row := query.schema.columns.map fun _ => Scalar.null
      return .ok ⟨query.schema, List.replicate asked row⟩

end Rehearsal

end Crosstab
