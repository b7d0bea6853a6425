import Crosstab.Proofs.Double.Signs
import Crosstab.Proofs.Json.Plans
import Crosstab.Query.Plan

namespace Crosstab

theorem Scalar.reals_unsigned (v : Scalar) : v.unsigned.reals = v.reals.map Double.unsigned := by
  cases v <;> rfl

theorem Scalar.type?_unsigned (v : Scalar) : v.unsigned.type? = v.type? := by
  cases v <;> rfl

theorem Scalar.eq_of_unsigned {v w : Scalar} (same : v.unsigned = w.unsigned)
    (reals : v.reals = w.reals) : v = w := by
  cases v <;> cases w <;> simp_all [Scalar.unsigned, Scalar.reals]

theorem Scalar.ne_nan_iff {v : Scalar} : v ≠ .real .nan ↔ ∀ x ∈ v.reals, x ≠ .nan := by
  cases v <;> simp [Scalar.reals]

/-! ## Expressions -/

namespace Expr

mutual

/-- The expression with every constant zero unsigned. -/
def unsigned : Expr → Expr
  | column name => column name
  | const value type => const value.unsigned type
  | combine op operands => combine op (unsignedAll operands)
  | rowNumber keys => rowNumber keys

def unsignedAll : List Expr → List Expr
  | [] => []
  | e :: rest => unsigned e :: unsignedAll rest

end

mutual

theorem reals_unsigned : ∀ e : Expr, e.unsigned.reals = e.reals.map Double.unsigned
  | .column _ | .rowNumber _ => rfl
  | .const value _ => value.reals_unsigned
  | .combine _ operands => realsOf_unsignedAll operands

theorem realsOf_unsignedAll : ∀ es : List Expr,
    realsOf (unsignedAll es) = (realsOf es).map Double.unsigned
  | [] => rfl
  | e :: es => by
    rw [unsignedAll, realsOf, realsOf, List.map_append, reals_unsigned e, realsOf_unsignedAll es]

end

theorem length_reals {e f : Expr} (same : e.unsigned = f.unsigned) :
    e.reals.length = f.reals.length := by
  rw [← List.length_map Double.unsigned, ← reals_unsigned, same, reals_unsigned, List.length_map]

mutual

theorem eq_of_unsigned : ∀ e f : Expr, e.unsigned = f.unsigned → e.reals = f.reals → e = f
  | .column _, f, same, _ => by cases f <;> simp_all [unsigned]
  | .rowNumber _, f, same, _ => by cases f <;> simp_all [unsigned]
  | .const _ _, f, same, agree => by
    cases f with
    | const =>
      obtain ⟨value, rfl⟩ := const.inj same
      rw [Scalar.eq_of_unsigned value agree]
    | column | combine | rowNumber => cases same
  | .combine _ es, f, same, agree => by
    cases f with
    | combine _ fs =>
      obtain ⟨rfl, operands⟩ := combine.inj same
      rw [eq_of_unsignedAll es fs operands agree]
    | column | const | rowNumber => cases same

theorem eq_of_unsignedAll : ∀ es fs : List Expr, unsignedAll es = unsignedAll fs →
    realsOf es = realsOf fs → es = fs
  | [], fs, same, _ => by cases fs <;> simp_all [unsignedAll]
  | e :: es, [], same, _ => by cases same
  | e :: es, f :: fs, same, agree => by
    obtain ⟨first, others⟩ := List.cons.inj same
    obtain ⟨here, there⟩ := List.append_inj agree (length_reals first)
    rw [eq_of_unsigned e f first here, eq_of_unsignedAll es fs others there]

end

mutual

/-- Expressions are equal if they are the same without the signs of zeros. -/
theorem equals_iff : ∀ e f : Expr,
    e.equals f = true ↔ e.unsigned = f.unsigned ∧ ∀ v ∈ e.reals, v ≠ .nan
  | .column _, f => by cases f <;> simp [equals, unsigned, reals]
  | .rowNumber _, f => by cases f <;> simp [equals, unsigned, reals]
  | .const _ _, f => by
    cases f <;> simp [equals, unsigned, reals, Scalar.equals_iff, Scalar.ne_nan_iff, and_right_comm]
  | .combine _ es, f => by
    cases f with
    | combine _ fs => simp [equals, unsigned, reals, equalsList_iff es fs, and_assoc]
    | column | const | rowNumber => simp [equals, unsigned]

theorem equalsList_iff : ∀ es fs : List Expr, equalsList es fs = true ↔
    unsignedAll es = unsignedAll fs ∧ ∀ v ∈ realsOf es, v ≠ .nan
  | [], fs => by cases fs <;> simp [equalsList, unsignedAll, realsOf]
  | e :: es, [] => by simp [equalsList, unsignedAll]
  | e :: es, f :: fs => by
    simp only [equalsList, unsignedAll, realsOf, Bool.and_eq_true, equals_iff e f,
      equalsList_iff es fs, List.cons.injEq, List.forall_mem_append]
    exact and_and_and_comm

end

mutual

theorem hasRowNumber_unsigned : ∀ e : Expr, e.unsigned.hasRowNumber = e.hasRowNumber
  | .column _ | .const _ _ | .rowNumber _ => rfl
  | .combine _ operands => anyRowNumber_unsignedAll operands

theorem anyRowNumber_unsignedAll : ∀ es : List Expr,
    anyRowNumber (unsignedAll es) = anyRowNumber es
  | [] => rfl
  | e :: es => by
    rw [unsignedAll, anyRowNumber, anyRowNumber, hasRowNumber_unsigned e,
      anyRowNumber_unsignedAll es]

end

theorem checkConstant_unsigned (v : Scalar) (type : DataType) :
    (checkConstant v.unsigned type).toOption = (checkConstant v type).toOption := by
  unfold checkConstant
  rw [v.type?_unsigned]
  split
  · rfl
  · split <;> rfl

mutual

/-- The sign of a zero has no part in the type of an expression. -/
theorem type_unsigned (s : Schema) : ∀ e : Expr,
    (e.unsigned.type s).toOption = (e.type s).toOption
  | .column _ | .rowNumber _ => rfl
  | .const value t => by
    have checked := checkConstant_unsigned value t
    rw [unsigned, type, type]
    generalize checkConstant value.unsigned t = x at checked ⊢
    generalize checkConstant value t = y at checked ⊢
    cases x <;> cases y <;> first | rfl | cases checked
  | .combine op operands => by
    have below := types_unsignedAll s operands
    rw [unsigned, type, type]
    generalize types s (unsignedAll operands) = x at below ⊢
    generalize types s operands = y at below ⊢
    cases x <;> cases y <;> first | rfl | cases below
    rfl

theorem types_unsignedAll (s : Schema) : ∀ es : List Expr,
    (types s (unsignedAll es)).toOption = (types s es).toOption
  | [] => rfl
  | e :: es => by
    have first := type_unsigned s e
    have others := types_unsignedAll s es
    rw [unsignedAll, types, types]
    generalize e.unsigned.type s = x at first ⊢
    generalize e.type s = y at first ⊢
    generalize types s (unsignedAll es) = xs at others ⊢
    generalize types s es = ys at others ⊢
    cases x <;> cases y <;> first | rfl | cases first
    cases xs <;> cases ys <;> first | rfl | cases others
    rfl

end

theorem type_unsigned_eq_ok_iff {s : Schema} {e : Expr} {t : DataType} :
    e.unsigned.type s = .ok t ↔ e.type s = .ok t := by
  rw [← toOption_eq_some_iff, type_unsigned, toOption_eq_some_iff]

end Expr

namespace Schema

variable {s t : Schema}

theorem checkPredicate_unsigned {predicate : Expr} (h : s.checkPredicate predicate = .ok ()) :
    s.checkPredicate predicate.unsigned = .ok () := by
  rw [checkPredicate_eq_ok_iff] at h ⊢
  rwa [Expr.hasRowNumber_unsigned, Expr.type_unsigned_eq_ok_iff]

theorem extend_unsigned {column : String} {type : DataType} {value : Expr}
    (h : s.extend column type value = .ok t) : s.extend column type value.unsigned = .ok t := by
  rw [extend_eq_ok_iff] at h ⊢
  simpa only [Expr.type_unsigned_eq_ok_iff] using h

end Schema

/-! ## Plans -/

namespace Plan

def unsigned {s : Schema} : Plan s → Plan s
  | table name s named => table name s named
  | project source columns derived => project source.unsigned columns derived
  | filter source predicate checked =>
    filter source.unsigned predicate.unsigned (Schema.checkPredicate_unsigned checked)
  | groupBy source columns aggregates derived =>
    groupBy source.unsigned columns aggregates derived
  | sort source keys checked => sort source.unsigned keys checked
  | extend source column type value derived =>
    extend source.unsigned column type value.unsigned (Schema.extend_unsigned derived)
  | mapColumns source mapping derived => mapColumns source.unsigned mapping derived
  | mapColumnsAt source mapping derived => mapColumnsAt source.unsigned mapping derived
  | concat left right derived => concat left.unsigned right.unsigned derived
  | join left right keys kind nullSafe derived =>
    join left.unsigned right.unsigned keys kind nullSafe derived

end Plan

def Query.unsigned (q : Query) : Query := ⟨q.schema, q.plan.unsigned⟩

/-- The operator at the top of a plan and its parameters, without the plans below. -/
inductive Head
  | table (name : String) (schema : Schema)
  | project (columns : List String)
  | filter (predicate : Expr)
  | groupBy (columns : List String) (aggregates : List AggregateColumn)
  | sort (keys : List SortKey)
  | extend (column : String) (type : DataType) (value : Expr)
  | mapColumns (mapping : OrderedMap String Renaming)
  | mapColumnsAt (mapping : OrderedMap Nat Renaming)
  | concat
  | join (keys : List String) (kind : JoinKind) (nullSafe : Bool)

namespace Head

def unsigned : Head → Head
  | filter predicate => filter predicate.unsigned
  | extend column type value => extend column type value.unsigned
  | h => h

def reals : Head → List Double
  | filter predicate => predicate.reals
  | extend _ _ value => value.reals
  | _ => []

theorem eq_of_unsigned {h k : Head} (same : h.unsigned = k.unsigned) (agree : h.reals = k.reals) :
    h = k := by
  cases h <;> cases k <;> simp_all [unsigned, reals] <;>
    exact Expr.eq_of_unsigned _ _ (by simp_all) agree

theorem reals_unsigned (h : Head) : h.unsigned.reals = h.reals.map Double.unsigned := by
  cases h <;> simp [unsigned, reals, Expr.reals_unsigned]

theorem map_unsigned_reals {h k : Head} (same : h.unsigned = k.unsigned) :
    h.reals.map Double.unsigned = k.reals.map Double.unsigned := by
  rw [← reals_unsigned, same, reals_unsigned]

theorem length_reals {h k : Head} (same : h.unsigned = k.unsigned) :
    h.reals.length = k.reals.length := by
  simpa only [List.length_map] using congrArg List.length (map_unsigned_reals same)

/-- How many plans stand below an operator. -/
def arity : Head → Nat
  | table .. => 0
  | concat | join .. => 2
  | _ => 1

theorem arity_unsigned (h : Head) : h.unsigned.arity = h.arity := by
  cases h <;> rfl

/-- The query that an operator makes of the queries below it. -/
def build : Head → List Query → Option Query
  | table name schema, [] => (Query.table name schema).toOption
  | project columns, [q] => (q.project columns).toOption
  | filter predicate, [q] => (q.filter predicate).toOption
  | groupBy columns aggregates, [q] => (q.groupBy columns aggregates).toOption
  | sort keys, [q] => (q.sort keys).toOption
  | extend column type value, [q] => (q.extend column type value).toOption
  | mapColumns mapping, [q] => (q.mapColumns mapping).toOption
  | mapColumnsAt mapping, [q] => (q.mapColumnsAt mapping).toOption
  | concat, [q, r] => (q.concat r).toOption
  | join keys kind nullSafe, [q, r] => (q.join r keys kind nullSafe).toOption
  | _, _ => none

end Head

namespace Plan

variable {s t : Schema}

def head : Plan s → Head
  | table name s _ => .table name s
  | project _ columns _ => .project columns
  | filter _ predicate _ => .filter predicate
  | groupBy _ columns aggregates _ => .groupBy columns aggregates
  | sort _ keys _ => .sort keys
  | extend _ column type value _ => .extend column type value
  | mapColumns _ mapping _ => .mapColumns mapping
  | mapColumnsAt _ mapping _ => .mapColumnsAt mapping
  | concat .. => .concat
  | join _ _ keys kind nullSafe _ => .join keys kind nullSafe

/-- A plan is what its top makes of the plans below. -/
theorem build_head (p : Plan s) : p.head.build p.children = some ⟨s, p⟩ := by
  cases p with
  | table name schema named => exact toOption_eq_some_iff.2 (Query.table_eq_ok_iff.2 ⟨named, rfl⟩)
  | project source columns derived =>
    exact toOption_eq_some_iff.2 (Query.project_eq_ok_iff.2 ⟨_, derived, rfl⟩)
  | filter source predicate checked =>
    exact toOption_eq_some_iff.2 (Query.filter_eq_ok_iff.2 ⟨checked, rfl⟩)
  | groupBy source columns aggregates derived =>
    exact toOption_eq_some_iff.2 (Query.groupBy_eq_ok_iff.2 ⟨_, derived, rfl⟩)
  | sort source keys checked =>
    exact toOption_eq_some_iff.2 (Query.sort_eq_ok_iff.2 ⟨checked, rfl⟩)
  | extend source column type value derived =>
    exact toOption_eq_some_iff.2 (Query.extend_eq_ok_iff.2 ⟨_, derived, rfl⟩)
  | mapColumns source mapping derived =>
    exact toOption_eq_some_iff.2 (Query.derive_eq_ok_iff.2 ⟨_, derived, rfl⟩)
  | mapColumnsAt source mapping derived =>
    exact toOption_eq_some_iff.2 (Query.derive_eq_ok_iff.2 ⟨_, derived, rfl⟩)
  | concat left right derived =>
    exact toOption_eq_some_iff.2 (Query.concat_eq_ok_iff.2 ⟨_, derived, rfl⟩)
  | join left right keys kind nullSafe derived =>
    exact toOption_eq_some_iff.2 (Query.join_eq_ok_iff.2 ⟨_, derived, rfl⟩)

theorem length_children (p : Plan s) : p.children.length = p.head.arity := by
  cases p <;> rfl

theorem head_unsigned (p : Plan s) : p.unsigned.head = p.head.unsigned := by
  cases p <;> rfl

theorem children_unsigned (p : Plan s) : p.unsigned.children = p.children.map Query.unsigned := by
  cases p <;> rfl

theorem reals_eq (p : Plan s) :
    p.reals = (p.children.flatMap fun child => child.plan.reals) ++ p.head.reals := by
  cases p <;> simp [reals, children, head, Head.reals]

theorem headEquals_iff {p : Plan s} {q : Plan t} : p.headEquals q = true ↔
    p.head.unsigned = q.head.unsigned ∧ ∀ v ∈ p.head.reals, v ≠ .nan := by
  cases p <;> cases q <;> simp [headEquals, head, Head.unsigned, Head.reals, Expr.equals_iff,
    and_assoc]

theorem headEquals_symm {p : Plan s} {q : Plan t} (h : p.headEquals q = true) :
    q.headEquals p = true := by
  obtain ⟨same, numbers⟩ := headEquals_iff.1 h
  exact headEquals_iff.2 ⟨same.symm,
    Double.forall_ne_nan_of_unsigned (Head.map_unsigned_reals same) numbers⟩

theorem headEquals_trans {u : Schema} {p : Plan s} {q : Plan t} {r : Plan u}
    (h : p.headEquals q = true) (k : q.headEquals r = true) : p.headEquals r = true := by
  obtain ⟨first, numbers⟩ := headEquals_iff.1 h
  exact headEquals_iff.2 ⟨first.trans (headEquals_iff.1 k).1, numbers⟩

/-- Plans are equal if their tops and the plans below are. -/
theorem equals_iff_children {p : Plan s} {q : Plan t} : p.equals q = true ↔
    p.headEquals q = true ∧ List.Forall₂ (fun a b => a.equals b = true) p.children q.children := by
  cases p <;> cases q <;> simp [equals, headEquals, children, Query.equals, and_assoc]

end Plan

/-! ## Queries -/

namespace Query

/-- What holds of a query if it holds of the queries below its top holds of every query. -/
theorem induct {P : Query → Prop} (step : ∀ q : Query, (∀ child ∈ q.plan.children, P child) → P q)
    (q : Query) : P q := by
  obtain ⟨s, p⟩ := q
  induction p with
  | table => exact step _ (List.forall_mem_nil _)
  | project _ _ _ ih | filter _ _ _ ih | groupBy _ _ _ _ ih | sort _ _ _ ih | extend _ _ _ _ _ ih
  | mapColumns _ _ _ ih | mapColumnsAt _ _ _ ih => exact step _ (List.forall_mem_singleton.2 ih)
  | concat _ _ _ ihl ihr | join _ _ _ _ _ _ ihl ihr =>
    exact step _ (List.forall_mem_cons.2 ⟨ihl, List.forall_mem_singleton.2 ihr⟩)

variable {q r : Query}

theorem ext_head (head : q.plan.head = r.plan.head) (below : q.plan.children = r.plan.children) :
    q = r := by
  have built := q.plan.build_head
  rw [head, below, r.plan.build_head] at built
  exact (Option.some.inj built).symm

/-- Without the signs of zeros, queries are the same if their tops and the queries below are. -/
theorem unsigned_eq_iff : q.unsigned = r.unsigned ↔ q.plan.head.unsigned = r.plan.head.unsigned ∧
    q.plan.children.map unsigned = r.plan.children.map unsigned := by
  constructor
  · intro same
    constructor
    · have := congrArg (fun q : Query => q.plan.head) same
      simpa only [unsigned, Plan.head_unsigned] using this
    · have := congrArg (fun q : Query => q.plan.children) same
      simpa only [unsigned, Plan.children_unsigned] using this
  · rintro ⟨head, below⟩
    refine ext_head ?_ ?_
    · simpa only [unsigned, Plan.head_unsigned] using head
    · simpa only [unsigned, Plan.children_unsigned] using below

theorem reals_unsigned (q : Query) : q.unsigned.plan.reals = q.plan.reals.map Double.unsigned := by
  induction q using induct with
  | step q ih =>
    rw [Plan.reals_eq, q.plan.reals_eq, unsigned, Plan.head_unsigned, Plan.children_unsigned,
      Head.reals_unsigned, List.map_append, List.flatMap_map, List.map_flatMap]
    refine congrArg (· ++ _) ?_
    rw [List.flatMap_def, List.flatMap_def]
    exact congrArg List.flatten (List.map_congr_left ih)

theorem map_unsigned_reals (same : q.unsigned = r.unsigned) :
    q.plan.reals.map Double.unsigned = r.plan.reals.map Double.unsigned := by
  rw [← reals_unsigned, same, reals_unsigned]

theorem length_reals (same : q.unsigned = r.unsigned) :
    q.plan.reals.length = r.plan.reals.length := by
  simpa only [List.length_map] using congrArg List.length (map_unsigned_reals same)

theorem forall₂_equals_iff {qs rs : List Query} (each : ∀ q ∈ qs, ∀ r : Query,
      q.equals r = true ↔ q.unsigned = r.unsigned ∧ ∀ v ∈ q.plan.reals, v ≠ .nan) :
    List.Forall₂ (fun a b => a.equals b = true) qs rs ↔
      qs.map unsigned = rs.map unsigned ∧ ∀ q ∈ qs, ∀ v ∈ q.plan.reals, v ≠ .nan := by
  induction qs generalizing rs with
  | nil => cases rs <;> simp
  | cons q qs ih =>
    obtain ⟨first, others⟩ := List.forall_mem_cons.1 each
    cases rs with
    | nil => simp
    | cons r rs =>
      rw [List.forall₂_cons, first r, ih others, List.map_cons, List.map_cons, List.cons.injEq,
        List.forall_mem_cons]
      exact and_and_and_comm

/-- Queries are equal if they are the same without the signs of zeros. -/
theorem equals_iff : q.equals r = true ↔ q.unsigned = r.unsigned ∧ ∀ v ∈ q.plan.reals, v ≠ .nan := by
  induction q using induct generalizing r with
  | step q ih =>
    rw [equals, Plan.equals_iff_children, Plan.headEquals_iff,
      forall₂_equals_iff fun child hc _ => ih child hc, unsigned_eq_iff, q.plan.reals_eq,
      List.forall_mem_append, List.forall_mem_flatMap, and_and_and_comm]
    exact and_congr_right fun _ => and_comm

theorem equals_symm (h : q.equals r = true) : r.equals q = true := by
  obtain ⟨same, numbers⟩ := equals_iff.1 h
  exact equals_iff.2 ⟨same.symm,
    Double.forall_ne_nan_of_unsigned (map_unsigned_reals same) numbers⟩

theorem equals_of_unsigned {t : Query} (same : q.unsigned = r.unsigned)
    (h : r.equals t = true) : q.equals t = true := by
  obtain ⟨next, numbers⟩ := equals_iff.1 h
  exact equals_iff.2 ⟨same.trans next,
    Double.forall_ne_nan_of_unsigned (map_unsigned_reals same.symm) numbers⟩

theorem eq_of_unsigned_all {qs rs : List Query} (each : ∀ q ∈ qs, ∀ r : Query,
      q.unsigned = r.unsigned → q.plan.reals = r.plan.reals → q = r)
    (same : qs.map unsigned = rs.map unsigned)
    (agree : (qs.flatMap fun q => q.plan.reals) = rs.flatMap fun r => r.plan.reals) : qs = rs := by
  induction qs generalizing rs with
  | nil => exact (List.map_eq_nil_iff.1 same.symm).symm
  | cons q qs ih =>
    obtain ⟨first, others⟩ := List.forall_mem_cons.1 each
    cases rs with
    | nil => cases same
    | cons r rs =>
      obtain ⟨here, there⟩ := List.cons.inj same
      obtain ⟨reals, more⟩ := List.append_inj agree (length_reals here)
      rw [first r here reals, ih others there more]

/-- Queries that only differ in the signs of zeros are the same if their constants are. -/
theorem eq_of_unsigned (same : q.unsigned = r.unsigned) (agree : q.plan.reals = r.plan.reals) :
    q = r := by
  induction q using induct generalizing r with
  | step q ih =>
    obtain ⟨head, below⟩ := unsigned_eq_iff.1 same
    rw [q.plan.reals_eq, r.plan.reals_eq] at agree
    obtain ⟨there, here⟩ := List.append_inj' agree (Head.length_reals head)
    exact ext_head (Head.eq_of_unsigned head here)
      (eq_of_unsigned_all (fun child hc _ => ih child hc) below there)

end Query

end Crosstab
