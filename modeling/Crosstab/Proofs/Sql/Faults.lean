import Crosstab.Proofs.Sql.Writing

namespace Crosstab

/-! ## What cannot be written -/

namespace Query

/-- The names that a node brings in: its table, if it is one, and its columns. -/
def names (node : Query) : List String :=
  match node.plan with
  | .table name _ _ => name :: node.schema.ids
  | _ => node.schema.ids

/-- A part of a node that no SQL text can hold, by the error that it causes. -/
inductive Unwritable (node : Query) : CompileError → Prop where
  | name {name : String} (mem : name ∈ node.names) (nul : '\x00' ∈ name.toList) :
      Unwritable node (.nulInIdentifier name)
  | text {s : String} (mem : .text s ∈ node.constants) (nul : '\x00' ∈ s.toList) :
      Unwritable node .nulInText
  | real {v : Double} (mem : .real v ∈ node.constants) (infinite : v.isFinite = false) :
      Unwritable node (.notFinite v)

/-- All parts of a node can be written: names and texts are without NUL, and reals are finite. -/
structure Writable (node : Query) : Prop where
  names : ∀ name ∈ node.names, '\x00' ∉ name.toList
  constants : ∀ value ∈ node.constants, value.writable = true

instance (node : Query) : Decidable node.Writable :=
  decidable_of_iff ((∀ name ∈ node.names, '\x00' ∉ name.toList) ∧
      ∀ value ∈ node.constants, value.writable = true)
    ⟨fun h => ⟨h.1, h.2⟩, fun h => ⟨h.names, h.constants⟩⟩

theorem Unwritable.unwritten {node : Query} {e : CompileError} (h : node.Unwritable e) :
    Sql.Unwritten node.names node.constants e := by
  cases h with
  | name mem nul => exact .name mem nul
  | text mem nul => exact .text mem nul
  | real mem infinite => exact .real mem infinite

theorem Writable.not_unwritable {node : Query} (h : node.Writable) (e : CompileError) :
    ¬ node.Unwritable e := fun bad => bad.unwritten.not_writable h.names h.constants

end Query

/-! ## Nodes at fault -/

namespace Plan

open Sql

variable {s : Schema}

theorem ids_subset_names (p : Plan s) : s.ids ⊆ Query.names ⟨s, p⟩ := by
  unfold Query.names
  split
  · exact List.subset_cons_self ..
  · exact List.Subset.refl _

/-- The names that a node writes are names of the node or of a node right below it. -/
theorem exists_node_of_mem_ownNames {p : Plan s} {name : String} (h : name ∈ p.ownNames) :
    ∃ node ∈ p.nodes, name ∈ node.names := by
  cases p with
  | table => exact ⟨_, List.mem_cons_self, h⟩
  | project | filter | groupBy | sort | extend =>
    exact ⟨_, List.mem_cons_self, ids_subset_names _ h⟩
  | mapColumns source | mapColumnsAt source =>
    obtain old | new := List.mem_append.1 h
    · exact ⟨_, List.mem_cons_of_mem _ List.mem_cons_self, ids_subset_names source old⟩
    · exact ⟨_, List.mem_cons_self, ids_subset_names _ new⟩
  | concat left right =>
    obtain ofLeft | ofRight := List.mem_append.1 h
    · exact ⟨⟨_, left⟩, by simp [nodes, inner], ids_subset_names left ofLeft⟩
    · exact ⟨⟨_, right⟩, by simp [nodes, inner], ids_subset_names right ofRight⟩
  | join left right keys kind nullSafe derived =>
    obtain own | key := List.mem_append.1 h
    · exact ⟨_, List.mem_cons_self, ids_subset_names _ own⟩
    obtain ofLeft | ofRight := List.mem_append.1 key
    · obtain ⟨k, hk, rfl⟩ := List.mem_map.1 ofLeft
      have id := idOf_mem (Schema.has_of_join derived hk).1
      exact ⟨⟨_, left⟩, by simp [nodes, inner], ids_subset_names left id⟩
    · obtain ⟨k, hk, rfl⟩ := List.mem_map.1 ofRight
      have id := idOf_mem (Schema.has_of_join derived hk).2
      exact ⟨⟨_, right⟩, by simp [nodes, inner], ids_subset_names right id⟩

theorem drawnNames_subset (node : Query) : node.drawnNames ⊆ node.plan.ownNames := by
  unfold Query.drawnNames
  split
  · next h =>
    rw [h]
    exact List.cons_subset_cons _ (List.nil_subset _)
  · exact List.Subset.refl _

theorem exists_node_of_mem_spelled {p : Plan s} {name : String} (h : name ∈ p.spelled) :
    ∃ node ∈ p.nodes, name ∈ node.names := by
  obtain own | below := List.mem_append.1 h
  · exact exists_node_of_mem_ownNames own
  · obtain ⟨node, mem, drawn⟩ := List.mem_flatMap.1 below
    obtain ⟨other, inside, named⟩ := exists_node_of_mem_ownNames (drawnNames_subset node drawn)
    exact ⟨other, nodes_subset (List.mem_cons_of_mem _ mem) inside, named⟩

/-- A node of the plan has a part that no SQL text can hold. -/
def Unwritable (p : Plan s) (e : CompileError) : Prop := ∃ node ∈ p.nodes, node.Unwritable e

/-- A plan without a statement has a node at fault. -/
theorem unwritable_of_statement (p : Plan s) (next : Nat) {e : CompileError}
    (h : p.statement next = .error e) : p.Unwritable e := by
  obtain ⟨mem, nul⟩ | ⟨mem, nul⟩ | ⟨mem, infinite⟩ := (p.writes_statement next).error e h
  · obtain ⟨node, hn, named⟩ := exists_node_of_mem_spelled mem
    exact ⟨node, hn, .name named nul⟩
  · obtain ⟨node, hn, value⟩ := List.mem_flatMap.1 mem
    exact ⟨node, hn, .text value nul⟩
  · obtain ⟨node, hn, value⟩ := List.mem_flatMap.1 mem
    exact ⟨node, hn, .real value infinite⟩

end Plan

/-- Where all nodes can be written, a query has SQL for its rows and for their number. An error is
always due to a name, a text or a real in some node; and the value of a derived column has a type
again, which alone decides whether it is cast. -/
theorem Query.sql_of_writable (q : Query) :
    ((∀ node ∈ q.plan.nodes, node.Writable) →
      (∃ text, q.sql = .ok text) ∧ ∃ text, q.countSql = .ok text) ∧
    (∀ e, q.sql = .error e ∨ q.countSql = .error e → ∃ node ∈ q.plan.nodes, node.Unwritable e) ∧
    ∀ {s t : Schema} (source : Plan s) (column : String) (type : DataType) (value : Expr)
      (derived : s.extend column type value = .ok t),
      ⟨t, .extend source column type value derived⟩ ∈ q.plan.nodes →
      ∃ actual, value.type s = .ok actual ∧ ∀ compiled,
        Plan.derivedExpr s type value compiled =
          if actual = type then compiled else .cast compiled type := by
  have fault (e : CompileError) (h : q.sql = .error e ∨ q.countSql = .error e) :
      q.plan.Unwritable e := by
    refine q.plan.unwritable_of_statement 0 ?_
    obtain h | h := h
    · exact map_eq_error_iff.1 h
    · exact error_of_bind_pure (map_eq_error_iff.1 h)
  refine ⟨fun writable => ?_, fault, ?_⟩
  · have none (e : CompileError) : ¬ q.plan.Unwritable e := by
      rintro ⟨node, mem, unwritable⟩
      exact (writable node mem).not_unwritable e unwritable
    constructor
    · cases h : q.sql with
      | ok text => exact ⟨text, rfl⟩
      | error e => exact absurd (fault e (.inl h)) (none e)
    · cases h : q.countSql with
      | ok text => exact ⟨text, rfl⟩
      | error e => exact absurd (fault e (.inr h)) (none e)
  · intro s t source column type value derived _
    obtain ⟨-, actual, typed, -⟩ := Schema.extend_eq_ok_iff.1 derived
    refine ⟨actual, typed, fun compiled => ?_⟩
    simp [Plan.derivedExpr, typed, Except.toOption]

def nulSales : Except Error Query := do
  let sales ← (Query.table "sales" ⟨[⟨"region", .text, "Region"⟩], by decide, by decide⟩).mapError
    .build
  sales.filter (.combine .eq [.column "REGION", .const (.text "No\x00rth") .text])

theorem sql_of_writable_rankedSales :
    (∃ q, rankedSales = .ok q ∧ (∀ node ∈ q.plan.nodes, node.Writable) ∧
      (∃ text, q.sql = .ok text) ∧ ∃ text, q.countSql = .ok text) ∧
    ∃ q, nulSales = .ok q ∧ q.countSql = .error .nulInText ∧
      ∃ node ∈ q.plan.nodes, node.Unwritable .nulInText := by
  constructor
  · obtain ⟨q, hq, writable⟩ : ∃ q, rankedSales = .ok q ∧ ∀ node ∈ q.plan.nodes, node.Writable :=
      ⟨_, rfl, by decide⟩
    exact ⟨q, hq, writable, q.sql_of_writable.1 writable⟩
  · obtain ⟨q, hq, error⟩ : ∃ q, nulSales = .ok q ∧ q.countSql = .error .nulInText :=
      ⟨_, rfl, rfl⟩
    exact ⟨q, hq, error, q.sql_of_writable.2.1 _ (.inr error)⟩

end Crosstab
