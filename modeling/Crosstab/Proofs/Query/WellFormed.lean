import Crosstab.Proofs.Json.Bounds
import Crosstab.Proofs.Json.RoundTrip
import Crosstab.Proofs.Query.Builders
import Crosstab.Proofs.Query.Judgement

/-!
# Every query that can be had is well formed

A query comes from calls of the builders, from a text that is read, or from builders that go on from
there. Whatever the order, every node of its plan obeys the rules of schemas and types.

* `Query.WellFormed` is what holds of a node;
* `Query.BuiltFrom` are the queries that builders give from some others, and `Query.Reachable` those
  that they give from texts; reading a text is itself a run of builders (`Query.built_of_ofText`);
* `Query.wellFormed_project` and its like say it of the node that one builder adds, and
  `Query.BuiltFrom.wellFormed` of a whole run;
* `Query.wellFormed_of_reachable` is the statement.
-/

namespace Crosstab

open Json (Draft Fields)

variable {s t : Schema}

/-! ## What a node says -/

namespace Plan

/-- The schema that the rule of the operator at the top gives for the schemas below it. -/
def derivation : Plan t → Except Error Schema
  | table name s _ => if name = "" then .error (.build .emptyTableName) else .ok s
  | project (s := s) _ columns _ => (s.project columns).mapError .build
  | filter (s := s) _ predicate _ => (s.checkPredicate predicate).map fun _ => s
  | groupBy (s := s) _ columns aggregates _ => (s.groupBy columns aggregates).mapError .build
  | sort (s := s) _ keys _ => ((s.checkSort keys).map fun _ => s).mapError .build
  | extend (s := s) _ column type value _ => s.extend column type value
  | mapColumns (s := s) _ mapping _ => (s.mapColumns mapping).mapError .build
  | mapColumnsAt (s := s) _ mapping _ => (s.mapColumnsAt mapping).mapError .build
  | concat (s := s) (r := r) _ _ _ => (s.concat r).mapError .build
  | join (s := s) (r := r) _ _ keys _ _ _ => (s.join r keys).mapError .build

/-- The expressions of the operator at the top, each with the schema of the rows it is over. -/
def expressions : Plan t → List (Schema × Expr)
  | filter (s := s) _ predicate _ => [(s, predicate)]
  | extend (s := s) _ _ _ value _ => [(s, value)]
  | _ => []

/-- The predicate of the operator at the top, with the schema of the rows it is over. -/
def predicates : Plan t → List (Schema × Expr)
  | filter (s := s) _ predicate _ => [(s, predicate)]
  | _ => []

/-- The columns that the operator at the top names, each with the schema it is to be found in. -/
def references : Plan t → List (Schema × String)
  | table .. | mapColumnsAt .. | concat .. => []
  | project (s := s) _ columns _ => columns.map (s, ·)
  | filter (s := s) _ predicate _ => predicate.references.map (s, ·)
  | groupBy (s := s) _ columns aggregates _ => (columns ++ aggregates.map (·.column)).map (s, ·)
  | sort (s := s) _ keys _ => keys.map fun k => (s, k.column)
  | extend (s := s) _ _ _ value _ => value.references.map (s, ·)
  | mapColumns (s := s) _ mapping _ => mapping.entries.map fun e => (s, e.1)
  | join (s := s) (r := r) _ _ keys _ _ _ => keys.map (s, ·) ++ keys.map (r, ·)

/-- The columns that the operator at the top gives by their places, each with the schema. -/
def places : Plan t → List (Schema × Nat)
  | mapColumnsAt (s := s) _ mapping _ => mapping.entries.map fun e => (s, e.1)
  | _ => []

end Plan

namespace Query

/-- A node obeys the rules: its schema is the one that its operator derives, with ids that are not
empty and pairwise different as names; every column it names is exactly one of the schema below it,
and every place is one; its expressions have types, and so has everything inside them; and a
predicate is a truth value without the rank of the row. -/
structure WellFormed (node : Query) : Prop where
  derived : node.plan.derivation = .ok node.schema
  named : ∀ c ∈ node.schema.columns, c.id ≠ ""
  distinct : node.schema.columns.Pairwise fun c d => ¬ SameName c.id d.id
  resolved : ∀ x ∈ node.plan.references, x.1.Resolves x.2
  inRange : ∀ x ∈ node.plan.places, x.2 < x.1.columns.length
  typed : ∀ x ∈ node.plan.expressions, ∀ part ∈ x.2.parts, ∃ type, part.HasType x.1 type
  boolean : ∀ x ∈ node.plan.predicates, x.2.HasType x.1 .boolean
  unranked : ∀ x ∈ node.plan.predicates, ∀ keys, .rowNumber keys ∉ x.2.parts

/-! ## The node that a builder adds -/

section
variable {q r other : Query}

/-- A node without expressions is well formed if its columns are found. -/
theorem wellFormed_of_plain {p : Plan t} (derived : p.derivation = .ok t)
    (plain : p.expressions = []) (unfiltered : p.predicates = [])
    (found : ∀ x ∈ p.references, x.1.has x.2 = true)
    (inRange : ∀ x ∈ p.places, x.2 < x.1.columns.length) : WellFormed ⟨t, p⟩ where
  derived := derived
  named := t.ids_nonempty
  distinct := List.pairwise_map.1 t.ids_distinct
  resolved x hx := Schema.resolves_of_has (found x hx)
  inRange := inRange
  typed := by rw [plain]; exact List.forall_mem_nil _
  boolean := by rw [unfiltered]; exact List.forall_mem_nil _
  unranked := by rw [unfiltered]; exact List.forall_mem_nil _

theorem wellFormed_table {name : String} (h : table name s = .ok r) : r.WellFormed := by
  obtain ⟨named, rfl⟩ := table_eq_ok_iff.1 h
  have derived : (Plan.table name s named).derivation = .ok s := by
    rw [Plan.derivation, if_neg named]
  exact wellFormed_of_plain derived rfl rfl (List.forall_mem_nil _) (List.forall_mem_nil _)

theorem wellFormed_project {columns : List String} (h : q.project columns = .ok r) :
    r.WellFormed := by
  obtain ⟨t, derived, rfl⟩ := project_eq_ok_iff.1 h
  obtain ⟨-, found⟩ := Schema.project_eq_ok_iff.1 derived
  refine wellFormed_of_plain (mapError_eq_ok_iff.2 derived) rfl rfl ?_ (List.forall_mem_nil _)
  refine List.forall_mem_map.2 fun name mem => ?_
  obtain ⟨c, -, hc⟩ := exists_of_mem_left found mem
  rw [Schema.has, hc]
  rfl

theorem wellFormed_filter {predicate : Expr} (h : q.filter predicate = .ok r) : r.WellFormed := by
  obtain ⟨checked, rfl⟩ := filter_eq_ok_iff.1 h
  obtain ⟨unranked, type⟩ := Schema.checkPredicate_eq_ok_iff.1 checked
  have typed := Expr.hasType_iff.2 type
  exact {
    derived := map_eq_ok_iff.2 ⟨(), checked, rfl⟩
    named := q.schema.ids_nonempty
    distinct := List.pairwise_map.1 q.schema.ids_distinct
    resolved := List.forall_mem_map.2 typed.resolves
    inRange := List.forall_mem_nil _
    typed := List.forall_mem_singleton.2 typed.part
    boolean := List.forall_mem_singleton.2 typed
    unranked := List.forall_mem_singleton.2 (Expr.not_mem_parts unranked) }

theorem wellFormed_groupBy {columns : List String} {aggregates : List AggregateColumn}
    (h : q.groupBy columns aggregates = .ok r) : r.WellFormed := by
  obtain ⟨t, derived, rfl⟩ := groupBy_eq_ok_iff.1 h
  obtain ⟨groups, inputs⟩ := Schema.has_of_groupBy derived
  refine wellFormed_of_plain (mapError_eq_ok_iff.2 derived) rfl rfl ?_ (List.forall_mem_nil _)
  exact List.forall_mem_map.2 (List.forall_mem_append.2 ⟨groups, List.forall_mem_map.2 inputs⟩)

theorem wellFormed_groupByRequests {columns : List String} {requests : List AggregateRequest}
    (h : q.groupByRequests columns requests = .ok r) : r.WellFormed := by
  obtain ⟨aggregates, -, grouped⟩ := bind_eq_ok_iff.1 h
  exact wellFormed_groupBy grouped

theorem wellFormed_sort {keys : List SortKey} (h : q.sort keys = .ok r) : r.WellFormed := by
  obtain ⟨checked, rfl⟩ := sort_eq_ok_iff.1 h
  obtain ⟨-, found⟩ := Schema.checkSort_eq_ok_iff.1 checked
  have derived : (Plan.sort q.plan keys checked).derivation = .ok q.schema :=
    mapError_eq_ok_iff.2 (map_eq_ok_iff.2 ⟨(), checked, rfl⟩)
  exact wellFormed_of_plain derived rfl rfl (List.forall_mem_map.2 found) (List.forall_mem_nil _)

theorem wellFormed_extend {column : String} {type : DataType} {value : Expr}
    (h : q.extend column type value = .ok r) : r.WellFormed := by
  obtain ⟨t, derived, rfl⟩ := extend_eq_ok_iff.1 h
  obtain ⟨-, actual, found, -⟩ := Schema.extend_eq_ok_iff.1 derived
  have typed := Expr.hasType_iff.2 found
  exact {
    derived := derived
    named := t.ids_nonempty
    distinct := List.pairwise_map.1 t.ids_distinct
    resolved := List.forall_mem_map.2 typed.resolves
    inRange := List.forall_mem_nil _
    typed := List.forall_mem_singleton.2 typed.part
    boolean := List.forall_mem_nil _
    unranked := List.forall_mem_nil _ }

theorem wellFormed_mapColumns {mapping : OrderedMap String Renaming}
    (h : q.mapColumns mapping = .ok r) : r.WellFormed := by
  obtain ⟨t, derived, rfl⟩ := derive_eq_ok_iff.1 h
  refine wellFormed_of_plain (mapError_eq_ok_iff.2 derived) rfl rfl ?_ (List.forall_mem_nil _)
  exact List.forall_mem_map.2 (Schema.has_of_mapColumns derived)

theorem wellFormed_mapColumnsAt {mapping : OrderedMap Nat Renaming}
    (h : q.mapColumnsAt mapping = .ok r) : r.WellFormed := by
  obtain ⟨t, derived, rfl⟩ := derive_eq_ok_iff.1 h
  refine wellFormed_of_plain (mapError_eq_ok_iff.2 derived) rfl rfl (List.forall_mem_nil _) ?_
  exact List.forall_mem_map.2 (Schema.lt_of_mapColumnsAt derived)

theorem wellFormed_concat (h : q.concat other = .ok r) : r.WellFormed := by
  obtain ⟨t, derived, rfl⟩ := concat_eq_ok_iff.1 h
  exact wellFormed_of_plain (mapError_eq_ok_iff.2 derived) rfl rfl (List.forall_mem_nil _)
    (List.forall_mem_nil _)

theorem wellFormed_join {keys : List String} {kind : JoinKind} {nullSafe : Bool}
    (h : q.join other keys kind nullSafe = .ok r) : r.WellFormed := by
  obtain ⟨t, derived, rfl⟩ := join_eq_ok_iff.1 h
  refine wellFormed_of_plain (mapError_eq_ok_iff.2 derived) rfl rfl ?_ (List.forall_mem_nil _)
  refine List.forall_mem_append.2 ⟨List.forall_mem_map.2 ?_, List.forall_mem_map.2 ?_⟩
  · intro key mem
    obtain ⟨c, -, hc, -⟩ := Schema.key_of_join derived mem
    simp [Schema.has, hc]
  · intro key mem
    obtain ⟨-, d, -, hd, -⟩ := Schema.key_of_join derived mem
    simp [Schema.has, hd]

end

/-! ## Runs of builders -/

/-- What the builders give from some queries. -/
inductive BuiltFrom (given : Query → Prop) : Query → Prop where
  | given {q : Query} (h : given q) : BuiltFrom given q
  | table {name : String} {schema : Schema} {r : Query} (h : Query.table name schema = .ok r) :
      BuiltFrom given r
  | project {q r : Query} {columns : List String} (source : BuiltFrom given q)
      (h : q.project columns = .ok r) : BuiltFrom given r
  | filter {q r : Query} {predicate : Expr} (source : BuiltFrom given q)
      (h : q.filter predicate = .ok r) : BuiltFrom given r
  | groupBy {q r : Query} {columns : List String} {aggregates : List AggregateColumn}
      (source : BuiltFrom given q) (h : q.groupBy columns aggregates = .ok r) : BuiltFrom given r
  | groupByRequests {q r : Query} {columns : List String} {requests : List AggregateRequest}
      (source : BuiltFrom given q) (h : q.groupByRequests columns requests = .ok r) :
      BuiltFrom given r
  | sort {q r : Query} {keys : List SortKey} (source : BuiltFrom given q)
      (h : q.sort keys = .ok r) : BuiltFrom given r
  | extend {q r : Query} {column : String} {type : DataType} {value : Expr}
      (source : BuiltFrom given q) (h : q.extend column type value = .ok r) : BuiltFrom given r
  | mapColumns {q r : Query} {mapping : OrderedMap String Renaming} (source : BuiltFrom given q)
      (h : q.mapColumns mapping = .ok r) : BuiltFrom given r
  | mapColumnsAt {q r : Query} {mapping : OrderedMap Nat Renaming} (source : BuiltFrom given q)
      (h : q.mapColumnsAt mapping = .ok r) : BuiltFrom given r
  | concat {q other r : Query} (left : BuiltFrom given q) (right : BuiltFrom given other)
      (h : q.concat other = .ok r) : BuiltFrom given r
  | join {q other r : Query} {keys : List String} {kind : JoinKind} {nullSafe : Bool}
      (left : BuiltFrom given q) (right : BuiltFrom given other)
      (h : q.join other keys kind nullSafe = .ok r) : BuiltFrom given r

/-- What builders give from queries that were read from texts. -/
def Reachable (q : Query) : Prop := BuiltFrom (fun q => ∃ text, ofText text = .ok q) q

variable {given : Query → Prop} {q : Query}

def AllWellFormed (q : Query) : Prop := ∀ node ∈ q.plan.nodes, node.WellFormed

theorem allWellFormed_of_children {q : Query} (top : q.WellFormed)
    (below : ∀ child ∈ q.plan.children, AllWellFormed child) : AllWellFormed q := by
  rw [AllWellFormed, Plan.nodes_eq, List.forall_mem_cons]
  refine ⟨top, fun node mem => ?_⟩
  obtain ⟨child, hc, inside⟩ := List.mem_flatMap.1 mem
  exact below child hc node inside

/-- Builders add well formed nodes only. -/
theorem BuiltFrom.allWellFormed (h : BuiltFrom given q) (start : ∀ q, given q → AllWellFormed q) :
    AllWellFormed q := by
  induction h with
  | given h => exact start _ h
  | table h =>
    have top := wellFormed_table h
    obtain ⟨named, rfl⟩ := table_eq_ok_iff.1 h
    exact allWellFormed_of_children top (List.forall_mem_nil _)
  | project _ h ih =>
    have top := wellFormed_project h
    obtain ⟨t, derived, rfl⟩ := project_eq_ok_iff.1 h
    exact allWellFormed_of_children top (List.forall_mem_singleton.2 ih)
  | filter _ h ih =>
    have top := wellFormed_filter h
    obtain ⟨checked, rfl⟩ := filter_eq_ok_iff.1 h
    exact allWellFormed_of_children top (List.forall_mem_singleton.2 ih)
  | groupBy _ h ih =>
    have top := wellFormed_groupBy h
    obtain ⟨t, derived, rfl⟩ := groupBy_eq_ok_iff.1 h
    exact allWellFormed_of_children top (List.forall_mem_singleton.2 ih)
  | groupByRequests _ h ih =>
    have top := wellFormed_groupByRequests h
    obtain ⟨aggregates, -, grouped⟩ := bind_eq_ok_iff.1 h
    obtain ⟨t, derived, rfl⟩ := groupBy_eq_ok_iff.1 grouped
    exact allWellFormed_of_children top (List.forall_mem_singleton.2 ih)
  | sort _ h ih =>
    have top := wellFormed_sort h
    obtain ⟨checked, rfl⟩ := sort_eq_ok_iff.1 h
    exact allWellFormed_of_children top (List.forall_mem_singleton.2 ih)
  | extend _ h ih =>
    have top := wellFormed_extend h
    obtain ⟨t, derived, rfl⟩ := extend_eq_ok_iff.1 h
    exact allWellFormed_of_children top (List.forall_mem_singleton.2 ih)
  | mapColumns _ h ih =>
    have top := wellFormed_mapColumns h
    obtain ⟨t, derived, rfl⟩ := derive_eq_ok_iff.1 h
    exact allWellFormed_of_children top (List.forall_mem_singleton.2 ih)
  | mapColumnsAt _ h ih =>
    have top := wellFormed_mapColumnsAt h
    obtain ⟨t, derived, rfl⟩ := derive_eq_ok_iff.1 h
    exact allWellFormed_of_children top (List.forall_mem_singleton.2 ih)
  | concat _ _ h left right =>
    have top := wellFormed_concat h
    obtain ⟨t, derived, rfl⟩ := concat_eq_ok_iff.1 h
    exact allWellFormed_of_children top
      (List.forall_mem_cons.2 ⟨left, List.forall_mem_singleton.2 right⟩)
  | join _ _ h left right =>
    have top := wellFormed_join h
    obtain ⟨t, derived, rfl⟩ := join_eq_ok_iff.1 h
    exact allWellFormed_of_children top
      (List.forall_mem_cons.2 ⟨left, List.forall_mem_singleton.2 right⟩)

/-! ## Queries from texts -/

/-- The fields of a node are handed to its builder. -/
theorem built_of_ofFields {child : Draft → Draft.Decoded Query}
    (below : ∀ {d : Draft} {q : Query}, child d = .ok q → BuiltFrom given q) {d : Draft}
    {operator : Operator} (h : ofFields child d operator = .ok q) : BuiltFrom given q := by
  cases operator with
  | table =>
    obtain ⟨⟨name, schema, ⟨⟩⟩, -, made⟩ := bind_eq_ok_iff.1 h
    exact .table (mapError_eq_ok_iff.1 made)
  | project =>
    obtain ⟨⟨source, columns, ⟨⟩⟩, read, made⟩ := bind_eq_ok_iff.1 h
    obtain ⟨⟨_, -, decoded⟩, -⟩ := Fields.decoded_of_read _ read
    exact .project (below decoded) (mapError_eq_ok_iff.1 made)
  | filter =>
    obtain ⟨⟨source, predicate, ⟨⟩⟩, read, made⟩ := bind_eq_ok_iff.1 h
    obtain ⟨⟨_, -, decoded⟩, -⟩ := Fields.decoded_of_read _ read
    exact .filter (below decoded) (mapError_eq_ok_iff.1 made)
  | groupBy =>
    obtain ⟨⟨source, columns, aggregates, ⟨⟩⟩, read, made⟩ := bind_eq_ok_iff.1 h
    obtain ⟨⟨_, -, decoded⟩, -⟩ := Fields.decoded_of_read _ read
    exact .groupBy (below decoded) (mapError_eq_ok_iff.1 made)
  | sort =>
    obtain ⟨⟨source, keys, ⟨⟩⟩, read, made⟩ := bind_eq_ok_iff.1 h
    obtain ⟨⟨_, -, decoded⟩, -⟩ := Fields.decoded_of_read _ read
    exact .sort (below decoded) (mapError_eq_ok_iff.1 made)
  | extend =>
    obtain ⟨⟨source, column, type, value, ⟨⟩⟩, read, made⟩ := bind_eq_ok_iff.1 h
    obtain ⟨⟨_, -, decoded⟩, -⟩ := Fields.decoded_of_read _ read
    exact .extend (below decoded) (mapError_eq_ok_iff.1 made)
  | mapColumns =>
    obtain ⟨⟨source, mapping, ⟨⟩⟩, read, made⟩ := bind_eq_ok_iff.1 h
    obtain ⟨⟨_, -, decoded⟩, -⟩ := Fields.decoded_of_read _ read
    exact .mapColumns (below decoded) (mapError_eq_ok_iff.1 made)
  | mapColumnsByIndex =>
    obtain ⟨⟨source, mapping, ⟨⟩⟩, read, made⟩ := bind_eq_ok_iff.1 h
    obtain ⟨⟨_, -, decoded⟩, -⟩ := Fields.decoded_of_read _ read
    exact .mapColumnsAt (below decoded) (mapError_eq_ok_iff.1 made)
  | concat =>
    obtain ⟨⟨source, target, ⟨⟩⟩, read, made⟩ := bind_eq_ok_iff.1 h
    obtain ⟨⟨_, -, left⟩, ⟨_, -, right⟩, -⟩ := Fields.decoded_of_read _ read
    exact .concat (below left) (below right) (mapError_eq_ok_iff.1 made)
  | join =>
    obtain ⟨⟨source, target, keys, kind, nullSafe, ⟨⟩⟩, read, made⟩ := bind_eq_ok_iff.1 h
    obtain ⟨⟨_, -, left⟩, ⟨_, -, right⟩, -⟩ := Fields.decoded_of_read _ read
    exact .join (below left) (below right) (mapError_eq_ok_iff.1 made)

theorem built_of_ofDraft {levels : Nat} {buffered : Bool} {d : Draft}
    (h : ofDraft levels buffered d = .ok q) : BuiltFrom given q := by
  induction levels generalizing buffered d q with
  | zero => cases h
  | succ levels ih =>
    obtain ⟨⟨operator, fields⟩, -, made⟩ := bind_eq_ok_iff.1 h
    exact built_of_ofFields ih made

/-- A query that is read from a text is what builders give from nothing. -/
theorem built_of_ofText {text : String} (h : ofText text = .ok q) : BuiltFrom given q := by
  obtain ⟨d, -, decoded⟩ := exists_draft_of_ofText h
  exact built_of_ofDraft decoded

/-- Every node of every query that can be had, from texts and by builders in any order, is well
formed. -/
theorem wellFormed_of_reachable (h : Reachable q) : ∀ node ∈ q.plan.nodes, node.WellFormed := by
  refine h.allWellFormed ?_
  rintro read ⟨text, found⟩
  have built : BuiltFrom (fun _ => False) read := built_of_ofText found
  exact built.allWellFormed fun _ no => no.elim

/-- Sales that are read from a text; the large ones stand beside the totals of their regions. -/
def largeSales : Except Error Query := do
  let columns := [⟨"region", .text, "Region"⟩, ⟨"Amount", .integer, "Amount"⟩]
  let stored ← (table "sales" ⟨columns, by decide, by decide⟩).mapError .build
  let sales ← (ofText stored.toJson.render).mapError .json
  let large ← sales.filter (.combine .and [.combine .isNotNull [.column "region"],
    .combine .ge [.column "AMOUNT", .const (.int 2) .real]])
  let totals ← (sales.groupByRequests ["region"] [.ofColumn "amount"]).mapError .build
  let renamed ← (totals.mapColumns ⟨[("Amount", ⟨some "total", none⟩)], by decide⟩).mapError .build
  (large.join renamed ["REGION"] .inner false).mapError .build

theorem wellFormed_of_reachable_largeSales : ∃ q, largeSales = .ok q ∧ Reachable q ∧
    q.plan.nodes.length = 6 ∧ ∀ node ∈ q.plan.nodes, node.WellFormed := by
  have shown : largeSales.toOption.map (fun q => q.plan.nodes.length) = some 6 := by
    decide +kernel
  obtain ⟨q, hq, six⟩ := Option.map_eq_some_iff.1 shown
  have built : largeSales = .ok q := by
    cases h : largeSales with
    | error e => rw [h] at hq; cases hq
    | ok r => rw [h] at hq; cases hq; rfl
  have reachable : Reachable q := by
    obtain ⟨stored, -, built⟩ := bind_eq_ok_iff.1 built
    obtain ⟨sales, read, built⟩ := bind_eq_ok_iff.1 built
    obtain ⟨large, filtered, built⟩ := bind_eq_ok_iff.1 built
    obtain ⟨totals, grouped, built⟩ := bind_eq_ok_iff.1 built
    obtain ⟨renamed, mapped, built⟩ := bind_eq_ok_iff.1 built
    have start : Reachable sales := .given ⟨_, mapError_eq_ok_iff.1 read⟩
    have right := start.groupByRequests (mapError_eq_ok_iff.1 grouped)
    exact (start.filter filtered).join (right.mapColumns (mapError_eq_ok_iff.1 mapped))
      (mapError_eq_ok_iff.1 built)
  exact ⟨q, built, reachable, six, wellFormed_of_reachable reachable⟩

end Query

end Crosstab
