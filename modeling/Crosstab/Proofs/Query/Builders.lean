import Crosstab.Proofs.Rules
import Crosstab.Query.Plan

namespace Crosstab

namespace Plan

def children {s : Schema} : Plan s → List Query
  | table .. => []
  | project source .. | filter source .. | groupBy source .. | sort source .. | extend source ..
  | mapColumns source .. | mapColumnsAt source .. => [⟨_, source⟩]
  | concat left right _ | join left right .. => [⟨_, left⟩, ⟨_, right⟩]

/-- The nodes under the top of a plan. -/
def inner {s : Schema} : Plan s → List Query
  | table .. => []
  | project source .. | filter source .. | groupBy source .. | sort source .. | extend source ..
  | mapColumns source .. | mapColumnsAt source .. => ⟨_, source⟩ :: source.inner
  | concat left right _ | join left right .. =>
    (⟨_, left⟩ :: left.inner) ++ (⟨_, right⟩ :: right.inner)

def nodes {s : Schema} (p : Plan s) : List Query := ⟨s, p⟩ :: p.inner

theorem nodes_eq {s : Schema} (p : Plan s) :
    p.nodes = ⟨s, p⟩ :: p.children.flatMap fun child => child.plan.nodes := by
  cases p <;> simp [nodes, inner, children]

/-- What holds of a plan and passes from every node to those right below holds of all nodes. -/
theorem nodes_closed {P : Query → Prop}
    (closed : ∀ q : Query, P q → ∀ child ∈ q.plan.children, P child) {s : Schema} (p : Plan s)
    (top : P ⟨s, p⟩) : ∀ node ∈ p.nodes, P node := by
  induction p with
  | table => exact List.forall_mem_singleton.2 top
  | project _ _ _ ih | filter _ _ _ ih | groupBy _ _ _ _ ih | sort _ _ _ ih | extend _ _ _ _ _ ih
  | mapColumns _ _ _ ih | mapColumnsAt _ _ _ ih =>
    have below := List.forall_mem_singleton.1 (closed _ top)
    exact List.forall_mem_cons.2 ⟨top, ih below⟩
  | concat _ _ _ ihl ihr | join _ _ _ _ _ _ ihl ihr =>
    obtain ⟨left, right⟩ := List.forall_mem_cons.1 (closed _ top)
    have right := List.forall_mem_singleton.1 right
    exact List.forall_mem_cons.2 ⟨top, List.forall_mem_append.2 ⟨ihl left, ihr right⟩⟩

/-- The nodes of a node are nodes of the plan. -/
theorem nodes_subset {s : Schema} {p : Plan s} {node : Query} (mem : node ∈ p.nodes) :
    node.plan.nodes ⊆ p.nodes := by
  refine nodes_closed (P := fun q => q.plan.nodes ⊆ p.nodes) (fun q sub child below => ?_) p
    (List.Subset.refl _) node mem
  refine List.Subset.trans (fun inner hi => ?_) sub
  rw [nodes_eq]
  exact List.mem_cons_of_mem _ (List.mem_flatMap.2 ⟨child, below, hi⟩)

end Plan

namespace Schema

variable {s r : Schema}

/-- Columns with ids of a schema, none of them twice, are the columns of a schema. -/
theorem exists_columns {columns : List Column} (ids : ∀ c ∈ columns, c.id ∈ s.ids)
    (distinct : (columns.map (·.id)).Nodup) : ∃ t : Schema, t.columns = columns := by
  refine ⟨⟨columns, fun c hc => ?_, ?_⟩, rfl⟩
  · obtain ⟨d, hd, same⟩ := List.mem_map.1 (ids c hc)
    exact same ▸ s.ids_nonempty d hd
  · have folded : ((columns.map (·.id)).map foldCase).Nodup := by
      refine distinct.map_on fun a ha b hb same => ?_
      obtain ⟨c, hc, rfl⟩ := List.mem_map.1 ha
      obtain ⟨d, hd, rfl⟩ := List.mem_map.1 hb
      obtain ⟨x, hx, eq⟩ := List.mem_map.1 (ids c hc)
      obtain ⟨y, hy, eq'⟩ := List.mem_map.1 (ids d hd)
      rw [← eq, ← eq'] at same
      rw [← eq, ← eq', eq_of_sameName hx hy same]
    rwa [List.map_map] at folded

theorem nodup_ids (s : Schema) : s.ids.Nodup := by
  have folded := s.ids_distinct
  rw [show (fun c : Column => foldCase c.id) = foldCase ∘ (·.id) from rfl, ← List.map_map] at folded
  exact folded.of_map

/-- Columns of a schema, none of them twice, are the columns of a schema. -/
theorem exists_sub {columns : List Column} (mem : ∀ c ∈ columns, c ∈ s.columns)
    (distinct : columns.Nodup) : ∃ t : Schema, t.columns = columns := by
  refine exists_columns (fun c hc => List.mem_map_of_mem (mem c hc)) ?_
  exact distinct.map_on fun c hc d hd same =>
    eq_of_sameName (mem c hc) (mem d hd) (congrArg foldCase same)

/-- Columns with the ids of a schema are the columns of a schema. -/
theorem exists_ids {columns : List Column} (ids : columns.map (·.id) = s.ids) :
    ∃ t : Schema, t.columns = columns :=
  exists_columns (fun _ hc => ids ▸ List.mem_map_of_mem hc) (ids ▸ s.nodup_ids)

/-- Two lists of columns without a common name are the columns of a schema. -/
theorem exists_append (apart : ∀ c ∈ s.columns, ∀ d ∈ r.columns, ¬ SameName c.id d.id) :
    ∃ t : Schema, t.columns = s.columns ++ r.columns := by
  refine ⟨⟨s.columns ++ r.columns, ?_, ?_⟩, rfl⟩
  · exact List.forall_mem_append.2 ⟨s.ids_nonempty, r.ids_nonempty⟩
  · rw [List.map_append]
    refine List.nodup_append.2 ⟨s.ids_distinct, r.ids_distinct, ?_⟩
    intro a ha b hb same
    obtain ⟨c, hc, rfl⟩ := List.mem_map.1 ha
    obtain ⟨d, hd, rfl⟩ := List.mem_map.1 hb
    exact apart c hc d hd same

/-- Columns that are put together in pairs keep the ids of the left side. -/
theorem ids_concatColumns {columns : List Column} (len : s.columns.length = r.columns.length)
    (each : List.Forall₂ (fun pair c => concatColumn pair.1 pair.2 = .ok c)
      (s.columns.zip r.columns) columns) : columns.map (·.id) = s.ids := by
  have zipped : (s.columns.zip r.columns).map (·.1.id) = columns.map (·.id) := by
    refine map_eq_map_of_forall₂ each fun pair c hc => ?_
    obtain ⟨-, type, -, rfl⟩ := concatColumn_eq_ok_iff.1 hc
    rfl
  rw [← zipped, ids]
  conv_rhs => rw [← List.map_fst_zip (Nat.le_of_eq len), List.map_map]
  rfl

/-- Keys and the columns that are not named by them are the columns of a schema. -/
theorem mem_keys_append {keys : List Column} (mem : ∀ c ∈ keys, c ∈ s.columns) {c : Column} :
    c ∈ keys ++ s.without (keys.map (·.id)) ↔ c ∈ s.columns := by
  rw [List.mem_append, mem_without]
  constructor
  · rintro (h | h)
    · exact mem c h
    · exact h.1
  · intro h
    by_cases key : ∃ name ∈ keys.map (·.id), SameName name c.id
    · obtain ⟨name, hn, same⟩ := key
      obtain ⟨k, hk, rfl⟩ := List.mem_map.1 hn
      exact .inl (eq_of_sameName (mem k hk) h same ▸ hk)
    · exact .inr ⟨h, fun name hn same => key ⟨name, hn, same⟩⟩

theorem nodup_keys_append {keys : List Column} (distinct : keys.Nodup) :
    (keys ++ s.without (keys.map (·.id))).Nodup := by
  refine List.nodup_append.2 ⟨distinct, s.ids_distinct.of_map.filter _, ?_⟩
  rintro c hc d hd rfl
  exact (mem_without.1 hd).2 c.id (List.mem_map_of_mem hc) (SameName.refl _)

theorem find?_of_mem {c : Column} {name : String} (h : c ∈ s.columns) (same : SameName c.id name) :
    s.find? name = some c := find?_eq_some_iff.2 ⟨h, same⟩

end Schema

namespace Query

variable {q r : Query}

theorem table_eq_ok_iff {name : String} {schema : Schema} :
    table name schema = .ok r ↔ ∃ named : name ≠ "", r = ⟨schema, .table name schema named⟩ := by
  unfold table
  split
  · next empty => simp [empty]
  · next named =>
    constructor
    · intro h
      exact ⟨named, (Except.ok.inj h).symm⟩
    · rintro ⟨_, rfl⟩
      rfl

theorem extend_eq_ok_iff {column : String} {type : DataType} {value : Expr} :
    q.extend column type value = .ok r ↔ ∃ t, ∃ h : q.schema.extend column type value = .ok t,
      r = ⟨t, .extend q.plan column type value h⟩ := derive_eq_ok_iff

theorem project_eq_ok_iff {columns : List String} :
    q.project columns = .ok r ↔ ∃ t, ∃ h : q.schema.project columns = .ok t,
      r = ⟨t, .project q.plan columns h⟩ := derive_eq_ok_iff

theorem groupBy_eq_ok_iff {columns : List String} {aggregates : List AggregateColumn} :
    q.groupBy columns aggregates = .ok r ↔ ∃ t, ∃ h : q.schema.groupBy columns aggregates = .ok t,
      r = ⟨t, .groupBy q.plan columns aggregates h⟩ := derive_eq_ok_iff

theorem concat_eq_ok_iff {other : Query} :
    q.concat other = .ok r ↔ ∃ t, ∃ h : q.schema.concat other.schema = .ok t,
      r = ⟨t, .concat q.plan other.plan h⟩ := derive_eq_ok_iff

theorem join_eq_ok_iff {other : Query} {keys : List String} {kind : JoinKind} {nullSafe : Bool} :
    q.join other keys kind nullSafe = .ok r ↔ ∃ t, ∃ h : q.schema.join other.schema keys = .ok t,
      r = ⟨t, .join q.plan other.plan keys kind nullSafe h⟩ := derive_eq_ok_iff

theorem filter_eq_ok_iff {predicate : Expr} :
    q.filter predicate = .ok r ↔ ∃ h : q.schema.checkPredicate predicate = .ok (),
      r = ⟨q.schema, .filter q.plan predicate h⟩ := by
  unfold filter
  split
  · next h =>
    constructor
    · intro e; exact ⟨h, (Except.ok.inj e).symm⟩
    · rintro ⟨_, rfl⟩; rfl
  · next e h =>
    constructor
    · intro k; cases k
    · rintro ⟨k, _⟩; rw [h] at k; cases k

theorem sort_eq_ok_iff {keys : List SortKey} :
    q.sort keys = .ok r ↔ ∃ h : q.schema.checkSort keys = .ok (),
      r = ⟨q.schema, .sort q.plan keys h⟩ := by
  unfold sort
  split
  · next h =>
    constructor
    · intro e; exact ⟨h, (Except.ok.inj e).symm⟩
    · rintro ⟨_, rfl⟩; rfl
  · next e h =>
    constructor
    · intro k; cases k
    · rintro ⟨k, _⟩; rw [h] at k; cases k

theorem exists_extend (column : String) (type : DataType) (value : Expr) {actual : DataType}
    (new : q.schema.has column = false) (named : column ≠ "")
    (typed : value.type q.schema = .ok actual) (fits : actual.castsTo type = true) :
    ∃ r, q.extend column type value = .ok r ∧
      r.schema.columns = q.schema.columns ++ [Column.named column type] := by
  obtain ⟨one, ho⟩ : ∃ s : Schema, s.columns = [Column.named column type] :=
    ⟨⟨[Column.named column type], by simpa [Column.named] using named, by simp⟩, rfl⟩
  obtain ⟨t, ht⟩ : ∃ t : Schema, t.columns = q.schema.columns ++ one.columns := by
    refine Schema.exists_append fun c hc d hd => ?_
    rw [ho] at hd
    rw [List.mem_singleton.1 hd]
    exact Schema.has_eq_false_iff.1 new c hc
  rw [ho] at ht
  have derived : q.schema.extend column type value = .ok t :=
    Schema.extend_eq_ok_iff.2 ⟨new, actual, typed, fits, ht⟩
  exact ⟨_, extend_eq_ok_iff.2 ⟨t, derived, rfl⟩, ht⟩

section
variable {column : String} {type : DataType} {value : Expr}
  (h : q.extend column type value = .ok r)
include h

theorem columns_extend : r.schema.columns = q.schema.columns ++ [Column.named column type] := by
  obtain ⟨t, derived, rfl⟩ := extend_eq_ok_iff.1 h
  obtain ⟨-, -, -, -, columns⟩ := Schema.extend_eq_ok_iff.1 derived
  exact columns

theorem mem_extend {c : Column} (hc : c ∈ q.schema.columns) : c ∈ r.schema.columns :=
  columns_extend h ▸ List.mem_append_left _ hc

theorem has_extend : r.schema.has column = true :=
  Schema.has_of_mem (c := .named column type) (by simp [columns_extend h])

theorem exists_type_of_extend : ∃ actual, value.type q.schema = .ok actual := by
  obtain ⟨t, derived, -⟩ := extend_eq_ok_iff.1 h
  obtain ⟨-, actual, typed, -⟩ := Schema.extend_eq_ok_iff.1 derived
  exact ⟨actual, typed⟩

end

theorem exists_project (columns : List Column) (nonempty : columns ≠ [])
    (mem : ∀ c ∈ columns, c ∈ q.schema.columns) (distinct : columns.Nodup) :
    ∃ r, q.project (columns.map (·.id)) = .ok r ∧ r.schema.columns = columns := by
  obtain ⟨t, ht⟩ := Schema.exists_sub mem distinct
  have derived : q.schema.project (columns.map (·.id)) = .ok t := by
    refine Schema.project_eq_ok_iff.2 ⟨by simpa using nonempty, ?_⟩
    rw [ht, List.forall₂_map_left_iff, List.forall₂_same]
    exact fun c hc => Schema.find?_self (mem c hc)
  exact ⟨_, project_eq_ok_iff.2 ⟨t, derived, rfl⟩, ht⟩

theorem exists_filter (predicate : Expr) (unranked : predicate.hasRowNumber = false)
    (typed : predicate.type q.schema = .ok .boolean) :
    ∃ r, q.filter predicate = .ok r ∧ r.schema = q.schema := by
  have checked := Schema.checkPredicate_eq_ok_iff.2 ⟨unranked, typed⟩
  exact ⟨_, filter_eq_ok_iff.2 ⟨checked, rfl⟩, rfl⟩

theorem exists_sort (keys : List SortKey) (nonempty : keys ≠ [])
    (has : ∀ k ∈ keys, q.schema.has k.column = true) :
    ∃ r, q.sort keys = .ok r ∧ r.schema = q.schema := by
  have checked := Schema.checkSort_eq_ok_iff.2 ⟨nonempty, has⟩
  exact ⟨_, sort_eq_ok_iff.2 ⟨checked, rfl⟩, rfl⟩

theorem exists_concat (other : Query) (columns : List Column)
    (len : q.schema.columns.length = other.schema.columns.length)
    (each : List.Forall₂ (fun pair c => Schema.concatColumn pair.1 pair.2 = .ok c)
      (q.schema.columns.zip other.schema.columns) columns) :
    ∃ r, q.concat other = .ok r ∧ r.schema.columns = columns := by
  obtain ⟨t, ht⟩ := Schema.exists_ids (Schema.ids_concatColumns len each)
  have derived : q.schema.concat other.schema = .ok t :=
    Schema.concat_eq_ok_iff.2 ⟨len, ht ▸ each⟩
  exact ⟨_, concat_eq_ok_iff.2 ⟨t, derived, rfl⟩, ht⟩

/-- A join needs keys that both sides have with the same types, and no other column that both have.
Its columns are those of the left side and the others of the right side. -/
theorem exists_join (other : Query) (keys : List Column) (kind : JoinKind) (nullSafe : Bool)
    (nonempty : keys ≠ []) (distinct : keys.Nodup) (left : ∀ c ∈ keys, c ∈ q.schema.columns)
    (right : ∀ c ∈ keys, c ∈ other.schema.columns)
    (apart : ∀ d ∈ other.schema.without (keys.map (·.id)), ∀ c ∈ q.schema.columns,
      ¬ SameName c.id d.id) :
    ∃ r, q.join other (keys.map (·.id)) kind nullSafe = .ok r ∧
      ∀ c, c ∈ r.schema.columns ↔
        c ∈ q.schema.columns ∨ c ∈ other.schema.without (keys.map (·.id)) := by
  obtain ⟨lefts, hl⟩ : ∃ t : Schema, t.columns = keys ++ q.schema.without (keys.map (·.id)) :=
    Schema.exists_sub (fun c hc => (Schema.mem_keys_append left).1 hc)
      (Schema.nodup_keys_append distinct)
  obtain ⟨rights, hr⟩ : ∃ t : Schema, t.columns = other.schema.without (keys.map (·.id)) :=
    Schema.exists_sub (fun c hc => (Schema.mem_without.1 hc).1)
      (other.schema.ids_distinct.of_map.filter _)
  have mem (c : Column) : c ∈ lefts.columns ↔ c ∈ q.schema.columns := by
    rw [hl, Schema.mem_keys_append left]
  obtain ⟨t, ht⟩ : ∃ t : Schema, t.columns = lefts.columns ++ rights.columns := by
    refine Schema.exists_append fun c hc d hd => ?_
    exact apart d (hr ▸ hd) c ((mem c).1 hc)
  have derived : q.schema.join other.schema (keys.map (·.id)) = .ok t := by
    refine Schema.join_eq_ok_iff.2 ⟨by simpa using nonempty, keys, ?_, by rw [ht, hl, hr]⟩
    rw [List.forall₂_map_left_iff, List.forall₂_same]
    intro c hc
    refine Schema.keyColumn_eq_ok_iff.2 ⟨Schema.find?_self (left c hc), c,
      Schema.find?_self (right c hc), ?_⟩
    simp [DataType.widen]
  refine ⟨_, join_eq_ok_iff.2 ⟨t, derived, rfl⟩, fun c => ?_⟩
  show c ∈ t.columns ↔ _
  rw [ht, List.mem_append, mem, hr]

end Query

end Crosstab
