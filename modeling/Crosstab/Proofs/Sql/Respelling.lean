import Crosstab.Proofs.Query.Respelling
import Crosstab.Sql.Compile

/-!
# Compilation and the spelling of references

Statements name columns by the ids that the schemas have, so the spelling of a reference leaves no
trace in them: another spelling of the references of a query is compiled to the same SQL, or fails
with the same error.
-/

namespace Crosstab

/-! ## References in statements -/

namespace Sql

variable {s r : Schema} {a b : String}

theorem canonical_respelled (has : s.has a = true) (same : SameName a b) :
    canonical s b = canonical s a := by
  unfold canonical
  rw [Schema.find?_respelled s same]
  cases found : s.find? a with
  | some => rfl
  | none =>
    rw [Schema.has, found] at has
    cases has

theorem orderKey_respelled {k l : SortKey} (has : s.has k.column = true) (same : k.Respelled l) :
    orderKey s l = orderKey s k := by
  rw [orderKey, orderKey, canonical_respelled has same.1, same.2]

theorem groupColumns_respelled {columns others : List String}
    (has : ∀ name ∈ columns, s.has name = true) (same : List.Forall₂ SameName columns others) :
    groupColumns s others = groupColumns s columns := by
  refine mapM_congr_of_forall₂ same fun name mem other spelled => ?_
  rw [canonical_respelled (has name mem) spelled]

theorem aggregateItem_respelled {a b : AggregateColumn} (has : s.has a.column = true)
    (same : a.Respelled b) : aggregateItem s b = aggregateItem s a := by
  unfold aggregateItem
  rw [Schema.find?_respelled s same.2, same.1]
  cases found : s.find? a.column with
  | some => rfl
  | none =>
    rw [Schema.has, found] at has
    cases has

theorem joinCondition_respelled {keys others : List String} (left right : String) (nullSafe : Bool)
    (has : ∀ key ∈ keys, s.has key = true ∧ r.has key = true)
    (same : List.Forall₂ SameName keys others) :
    joinCondition s r left right nullSafe others = joinCondition s r left right nullSafe keys := by
  unfold joinCondition
  rw [mapM_congr_of_forall₂ same fun key mem other spelled => ?_]
  rw [keyCondition, keyCondition, canonical_respelled (has key mem).1 spelled,
    canonical_respelled (has key mem).2 spelled]

end Sql

namespace Expr

variable {s : Schema}

mutual

/-- An expression that has a type is compiled alike under other spellings. -/
theorem sql_respelled : ∀ (e f : Expr) (t : DataType), e.Respelled f → e.type s = .ok t →
    f.sql s = e.sql s
  | .column a, f, t, same, typed => by
    cases f with
    | column b => rw [sql, sql, Sql.canonical_respelled (has_of_type_column typed) same]
    | const | combine | rowNumber => cases same
  | .const _ _, f, t, same, typed => by
    cases f with
    | const =>
      obtain ⟨rfl, rfl⟩ := same
      rfl
    | column | combine | rowNumber => cases same
  | .rowNumber ks, f, t, same, typed => by
    cases f with
    | rowNumber ls =>
      have has := has_of_type_rowNumber typed
      have keys : ls.mapM (Sql.orderKey s) = ks.mapM (Sql.orderKey s) :=
        mapM_congr_of_forall₂ same fun k mem l spelled => Sql.orderKey_respelled (has k mem) spelled
      rw [sql, sql, keys]
    | column | const | combine => cases same
  | .combine op es, f, t, same, typed => by
    cases f with
    | combine _ fs =>
      obtain ⟨rfl, operands⟩ := same
      obtain ⟨ts, each, -⟩ := type_combine_eq_ok_iff.1 typed
      rw [sql, sql, sqls_respelled es fs ts operands (types_eq_ok_iff.2 each)]
    | column | const | rowNumber => cases same

theorem sqls_respelled : ∀ (es fs : List Expr) (ts : List DataType), RespelledAll es fs →
    types s es = .ok ts → sqls s fs = sqls s es
  | [], [], _, _, _ => rfl
  | e :: es, f :: fs, ts, same, typed => by
    obtain _ | ⟨first, others⟩ := types_eq_ok_iff.1 typed
    rw [sqls, sqls, sql_respelled e f _ same.1 first,
      sqls_respelled es fs _ same.2 (types_eq_ok_iff.2 others)]

end

end Expr

/-! ## Plans -/

namespace Plan

variable {s r t : Schema}

/-- A plan is drawn from and compiled as another one, and has the same schema at every node. -/
structure ReadsAs (p q : Plan s) : Prop where
  statement : ∀ next, q.statement next = p.statement next
  tableRef : ∀ number statement, q.tableRef number statement = p.tableRef number statement
  aliasCount : q.aliasCount = p.aliasCount
  schemas : List.Forall₂ (fun a b : Query => a.schema = b.schema) p.nodes q.nodes

theorem ReadsAs.refl (p : Plan s) : p.ReadsAs p where
  statement _ := rfl
  tableRef _ _ := rfl
  aliasCount := rfl
  schemas := List.forall₂_same.2 fun _ _ => rfl

end Plan

/-- A query is compiled as another one, and has the same schema at every node. -/
def Query.ReadsAs (q r : Query) : Prop := ∃ plan, r = ⟨q.schema, plan⟩ ∧ q.plan.ReadsAs plan

namespace Plan

variable {s r t : Schema}

theorem aliasCount_eq (p : Plan s) :
    p.aliasCount = (p.children.map fun child => child.plan.aliasCount + 1).sum := by
  cases p with
  | concat | join =>
    simp only [aliasCount, children, List.map_cons, List.map_nil, List.sum_cons, List.sum_nil]
    omega
  | _ => rfl

theorem tableRef_of_children {p : Plan s} (inner : p.children ≠ []) (number : Nat)
    (statement : Except CompileError Sql.Statement) : p.tableRef number statement =
      (do return .subquery (← statement) (Sql.aliasName number)) := by
  cases p with
  | table => exact absurd rfl inner
  | _ => rfl

/-- Above the tables it is enough that the statements are the same, if the children read alike. -/
theorem ReadsAs.of_children {p q : Plan s} (inner : p.children ≠ [])
    (below : List.Forall₂ Query.ReadsAs p.children q.children)
    (statement : ∀ next, q.statement next = p.statement next) : p.ReadsAs q where
  statement := statement
  tableRef number statement := by
    have inner' : q.children ≠ [] := mt (forall₂_nil_iff below).1 inner
    rw [tableRef_of_children inner, tableRef_of_children inner']
  aliasCount := by
    have counts := map_eq_map_of_forall₂ (f := fun child : Query => child.plan.aliasCount + 1)
      (g := fun child : Query => child.plan.aliasCount + 1) below fun a b same => by
        obtain ⟨plan, rfl, same⟩ := same
        exact congrArg (· + 1) same.aliasCount.symm
    rw [aliasCount_eq, aliasCount_eq, counts]
  schemas := by
    rw [nodes_eq, nodes_eq]
    refine .cons rfl ?_
    generalize p.children = children, q.children = others at below
    induction below with
    | nil => exact .nil
    | cons first _ ih =>
      obtain ⟨plan, rfl, same⟩ := first
      rw [List.flatMap_cons, List.flatMap_cons]
      exact List.rel_append same.schemas ih

/-! ### One operator -/

section

attribute [local simp] statement

variable {p p' : Plan s} (same : p.ReadsAs p')
include same

theorem ReadsAs.below : List.Forall₂ Query.ReadsAs [⟨s, p⟩] [⟨s, p'⟩] :=
  .cons ⟨p', rfl, same⟩ .nil

theorem readsAs_project {columns others : List String} (derived : s.project columns = .ok t)
    (derived' : s.project others = .ok t) :
    (project p columns derived).ReadsAs (project p' others derived') := by
  refine .of_children (List.cons_ne_nil _ _) same.below fun next => ?_
  simp [same.statement, same.tableRef]

theorem readsAs_filter {predicate other : Expr} (checked : s.checkPredicate predicate = .ok ())
    (checked' : s.checkPredicate other = .ok ()) (spelled : predicate.Respelled other) :
    (filter p predicate checked).ReadsAs (filter p' other checked') := by
  refine .of_children (List.cons_ne_nil _ _) same.below fun next => ?_
  have typed := (Schema.checkPredicate_eq_ok_iff.1 checked).2
  simp [same.statement, same.tableRef, Expr.sql_respelled _ _ _ spelled typed]

theorem readsAs_groupBy {columns columns' : List String}
    {aggregates aggregates' : List AggregateColumn}
    (derived : s.groupBy columns aggregates = .ok t)
    (derived' : s.groupBy columns' aggregates' = .ok t)
    (spelled : List.Forall₂ SameName columns columns')
    (respelled : List.Forall₂ AggregateColumn.Respelled aggregates aggregates') :
    (groupBy p columns aggregates derived).ReadsAs (groupBy p' columns' aggregates' derived') := by
  refine .of_children (List.cons_ne_nil _ _) same.below fun next => ?_
  obtain ⟨has, hasInput⟩ := Schema.has_of_groupBy derived
  have items : aggregates'.mapM (Sql.aggregateItem s) = aggregates.mapM (Sql.aggregateItem s) :=
    mapM_congr_of_forall₂ respelled fun a mem b spelled =>
      Sql.aggregateItem_respelled (hasInput a mem) spelled
  simp [same.statement, same.tableRef, Sql.groupColumns_respelled has spelled,
    items]

theorem readsAs_sort {keys others : List SortKey} (checked : s.checkSort keys = .ok ())
    (checked' : s.checkSort others = .ok ())
    (spelled : List.Forall₂ SortKey.Respelled keys others) :
    (sort p keys checked).ReadsAs (sort p' others checked') := by
  refine .of_children (List.cons_ne_nil _ _) same.below fun next => ?_
  have has := (Schema.checkSort_eq_ok_iff.1 checked).2
  have order : others.mapM (Sql.orderKey s) = keys.mapM (Sql.orderKey s) :=
    mapM_congr_of_forall₂ spelled fun k mem l spelled => Sql.orderKey_respelled (has k mem) spelled
  simp [same.statement, same.tableRef, order]

theorem readsAs_extend {column : String} {type : DataType} {value other : Expr}
    (derived : s.extend column type value = .ok t) (derived' : s.extend column type other = .ok t)
    (spelled : value.Respelled other) :
    (extend p column type value derived).ReadsAs (extend p' column type other derived') := by
  refine .of_children (List.cons_ne_nil _ _) same.below fun next => ?_
  obtain ⟨-, actual, typed, -, -⟩ := Schema.extend_eq_ok_iff.1 derived
  have derivedSame : derivedExpr s type other = derivedExpr s type value := by
    funext compiled
    rw [derivedExpr, derivedExpr, typed, Expr.type_respelled _ _ _ spelled typed]
  simp [same.statement, same.tableRef, Expr.sql_respelled _ _ _ spelled typed,
    derivedSame]

theorem readsAs_mapColumns {mapping other : OrderedMap String Renaming}
    (derived : s.mapColumns mapping = .ok t) (derived' : s.mapColumns other = .ok t) :
    (mapColumns p mapping derived).ReadsAs (mapColumns p' other derived') := by
  refine .of_children (List.cons_ne_nil _ _) same.below fun next => ?_
  simp [same.statement, same.tableRef]

theorem readsAs_mapColumnsAt {mapping : OrderedMap Nat Renaming}
    (derived : s.mapColumnsAt mapping = .ok t) :
    (mapColumnsAt p mapping derived).ReadsAs (mapColumnsAt p' mapping derived) := by
  refine .of_children (List.cons_ne_nil _ _) same.below fun next => ?_
  simp [same.statement, same.tableRef]

variable {q q' : Plan r} (same' : q.ReadsAs q')
include same'

theorem readsAs_concat (derived : s.concat r = .ok t) :
    (concat p q derived).ReadsAs (concat p' q' derived) := by
  refine .of_children (List.cons_ne_nil _ _) (.cons ⟨p', rfl, same⟩ same'.below) fun next => ?_
  simp [same.statement, same.tableRef, same.aliasCount, same'.statement,
    same'.tableRef]

theorem readsAs_join {keys others : List String} {kind : JoinKind} {nullSafe : Bool}
    (derived : s.join r keys = .ok t) (derived' : s.join r others = .ok t)
    (spelled : List.Forall₂ SameName keys others) :
    (join p q keys kind nullSafe derived).ReadsAs (join p' q' others kind nullSafe derived') := by
  refine .of_children (List.cons_ne_nil _ _) (.cons ⟨p', rfl, same⟩ same'.below) fun next => ?_
  have has (key : String) (mem : key ∈ keys) := Schema.has_of_join derived mem
  simp [same.statement, same.tableRef, same.aliasCount, same'.statement,
    same'.tableRef, Sql.joinCondition_respelled _ _ nullSafe has spelled]

end

/-- An operator with other spellings can be put above queries that read as those below it, and the
whole reads as before. -/
theorem exists_build (p : Plan s) {head : Head} (spelled : p.head.Respelled head)
    {below : List Query} (same : List.Forall₂ Query.ReadsAs p.children below) :
    ∃ q, head.build below = some q ∧ Query.ReadsAs ⟨s, p⟩ q := by
  cases p with
  | table name s named =>
    cases same
    cases spelled
    exact ⟨_, toOption_eq_some_iff.2 (Query.table_eq_ok_iff.2 ⟨named, rfl⟩), _, rfl, .refl _⟩
  | project source columns derived =>
    obtain _ | ⟨⟨_, rfl, same⟩, ⟨⟩⟩ := same
    cases spelled with
    | project names =>
      have derived' := Schema.project_respelled derived names
      exact ⟨_, toOption_eq_some_iff.2 (Query.project_eq_ok_iff.2 ⟨_, derived', rfl⟩), _, rfl,
        readsAs_project same derived derived'⟩
  | filter source predicate checked =>
    obtain _ | ⟨⟨_, rfl, same⟩, ⟨⟩⟩ := same
    cases spelled with
    | filter condition =>
      have checked' := Schema.checkPredicate_respelled checked condition
      exact ⟨_, toOption_eq_some_iff.2 (Query.filter_eq_ok_iff.2 ⟨checked', rfl⟩), _, rfl,
        readsAs_filter same checked checked' condition⟩
  | groupBy source columns aggregates derived =>
    obtain _ | ⟨⟨_, rfl, same⟩, ⟨⟩⟩ := same
    cases spelled with
    | groupBy names inputs =>
      have derived' := Schema.groupBy_respelled derived names inputs
      exact ⟨_, toOption_eq_some_iff.2 (Query.groupBy_eq_ok_iff.2 ⟨_, derived', rfl⟩), _, rfl,
        readsAs_groupBy same derived derived' names inputs⟩
  | sort source keys checked =>
    obtain _ | ⟨⟨_, rfl, same⟩, ⟨⟩⟩ := same
    cases spelled with
    | sort names =>
      have checked' := Schema.checkSort_respelled checked names
      exact ⟨_, toOption_eq_some_iff.2 (Query.sort_eq_ok_iff.2 ⟨checked', rfl⟩), _, rfl,
        readsAs_sort same checked checked' names⟩
  | extend source column type value derived =>
    obtain _ | ⟨⟨_, rfl, same⟩, ⟨⟩⟩ := same
    cases spelled with
    | extend _ _ term =>
      have derived' := Schema.extend_respelled derived term
      exact ⟨_, toOption_eq_some_iff.2 (Query.extend_eq_ok_iff.2 ⟨_, derived', rfl⟩), _, rfl,
        readsAs_extend same derived derived' term⟩
  | mapColumns source mapping derived =>
    obtain _ | ⟨⟨_, rfl, same⟩, ⟨⟩⟩ := same
    cases spelled with
    | mapColumns names =>
      have derived' := Schema.mapColumns_respelled derived names
      exact ⟨_, toOption_eq_some_iff.2 (Query.derive_eq_ok_iff.2 ⟨_, derived', rfl⟩), _, rfl,
        readsAs_mapColumns same derived derived'⟩
  | mapColumnsAt source mapping derived =>
    obtain _ | ⟨⟨_, rfl, same⟩, ⟨⟩⟩ := same
    cases spelled
    exact ⟨_, toOption_eq_some_iff.2 (Query.derive_eq_ok_iff.2 ⟨_, derived, rfl⟩), _, rfl,
      readsAs_mapColumnsAt same derived⟩
  | concat left right derived =>
    obtain _ | ⟨⟨_, rfl, same⟩, _ | ⟨⟨_, rfl, same'⟩, ⟨⟩⟩⟩ := same
    cases spelled
    exact ⟨_, toOption_eq_some_iff.2 (Query.concat_eq_ok_iff.2 ⟨_, derived, rfl⟩), _, rfl,
      readsAs_concat same same' derived⟩
  | join left right keys kind nullSafe derived =>
    obtain _ | ⟨⟨_, rfl, same⟩, _ | ⟨⟨_, rfl, same'⟩, ⟨⟩⟩⟩ := same
    cases spelled with
    | join _ _ names =>
      have derived' := Schema.join_respelled derived names
      exact ⟨_, toOption_eq_some_iff.2 (Query.join_eq_ok_iff.2 ⟨_, derived', rfl⟩), _, rfl,
        readsAs_join same same' derived derived' names⟩

end Plan

namespace Query

/-- Other spellings of the references of a query make a query that reads as it does. -/
theorem exists_build_outline (q : Query) {outline : Outline}
    (spelled : q.plan.outline.Respelled outline) : ∃ r, outline.build = some r ∧ q.ReadsAs r := by
  induction q using induct generalizing outline with
  | step q ih =>
    obtain ⟨head, below⟩ := outline
    rw [Plan.outline_eq] at spelled
    obtain ⟨top, children⟩ := spelled
    rw [Outline.respelledAll_iff, List.forall₂_map_left_iff] at children
    obtain ⟨queries, built, same⟩ := exists_forall₂_of_forall₂ children
      fun child mem _ spelled => ih child mem spelled
    obtain ⟨r, made, reads⟩ := q.plan.exists_build top same
    refine ⟨r, ?_, reads⟩
    rw [Outline.build, Outline.buildAll_eq_some_iff.2 built]
    exact made

/-- The spelling of column references, at any depth of a query, does not matter: with every
reference spelled in another case the operators fit together as before, every node has the same
schema, and the query is compiled to the same SQL or fails with the same error. -/
theorem build_respelled (q : Query) (outline : Outline)
    (spelled : q.plan.outline.Respelled outline) :
    ∃ r, outline.build = some r ∧
      List.Forall₂ (fun a b : Query => a.schema = b.schema) q.plan.nodes r.plan.nodes ∧
      r.sql = q.sql ∧ r.countSql = q.countSql := by
  obtain ⟨_, built, plan, rfl, same⟩ := q.exists_build_outline spelled
  have statement : Query.statement ⟨q.schema, plan⟩ = q.statement := same.statement 0
  refine ⟨_, built, same.schemas, ?_, ?_⟩
  · rw [sql, sql, statement]
  · rw [countSql, countSql, countStatement, countStatement, statement, same.aliasCount]

end Query

/-- The columns of sales under other names, as the columns are spelled in the table. -/
def areaNames : OrderedMap String Renaming :=
  ⟨[("AMOUNT", ⟨some "total", none⟩), ("region", ⟨some "area", none⟩)], by decide⟩

def otherAreaNames : OrderedMap String Renaming :=
  ⟨[("REGION", ⟨some "area", none⟩), ("amount", ⟨some "total", none⟩)], by decide⟩

def areaTotals : Except Error Query := do
  let sales ← (Query.table "sales"
    ⟨[.named "region" .text, .named "amount" .integer], by decide, by decide⟩).mapError .build
  let named ← (sales.mapColumns areaNames).mapError .build
  let large ← named.filter (.combine .ge [.column "total", .lit (.int 100)])
  let totals ← (large.groupBy ["area"] [⟨.sum, "total"⟩]).mapError .build
  let areas ← (Query.table "areas"
    ⟨[.named "area" .text, .named "country" .text], by decide, by decide⟩).mapError .build
  (totals.join areas ["area"] .inner false).mapError .build

/-- The operators of that query, with spellings for the key of the join, for the group column, for
the aggregated column, for the column in the condition and for the renamed columns. -/
def areaOutline (key group input column : String) (names : OrderedMap String Renaming) : Outline :=
  .node (.join [key] .inner false) [
    .node (.groupBy [group] [⟨.sum, input⟩]) [
      .node (.filter (.combine .ge [.column column, .lit (.int 100)])) [
        .node (.mapColumns names) [
          .node (.table "sales" ⟨[.named "region" .text, .named "amount" .integer],
            by decide, by decide⟩) []]]],
    .node (.table "areas" ⟨[.named "area" .text, .named "country" .text],
      by decide, by decide⟩) []]

theorem areaNames_respelled : RenamingsRespelled areaNames otherAreaNames := by
  have once : RenamedOnce areaNames.entries := by
    rw [RenamedOnce]
    decide
  have names : List.Forall₂ (fun a b => SameName a.1 b.1 ∧ a.2 = b.2) areaNames.entries
      [("amount", ⟨some "total", none⟩), ("REGION", ⟨some "area", none⟩)] :=
    .cons ⟨by decide, rfl⟩ (.cons ⟨by decide, rfl⟩ .nil)
  exact .once once names (.swap ..)

theorem build_respelled_areaTotals : ∃ q outline, areaTotals = .ok q ∧
    outline = areaOutline "AREA" "Area" "TOTAL" "Total" otherAreaNames ∧
    q.plan.outline.Respelled outline ∧
    ∃ r, outline.build = some r ∧ r.schema = q.schema ∧ r.sql = q.sql := by
  obtain ⟨q, made, own⟩ : ∃ q, areaTotals = .ok q ∧
      q.plan.outline = areaOutline "area" "area" "total" "total" areaNames := ⟨_, rfl, rfl⟩
  obtain ⟨outline, other⟩ : ∃ outline, outline =
      areaOutline "AREA" "Area" "TOTAL" "Total" otherAreaNames := ⟨_, rfl⟩
  have spelled : q.plan.outline.Respelled outline := by
    have area : SameName "area" "Area" := by decide
    have key : SameName "area" "AREA" := by decide
    have total : SameName "total" "TOTAL" := by decide
    have column : SameName "total" "Total" := by decide
    rw [own, other]
    refine ⟨.join _ _ (.cons key .nil), ⟨.groupBy (.cons area .nil) (.cons ⟨rfl, total⟩ .nil), ?_,
      trivial⟩, ⟨.table _ _, trivial⟩, trivial⟩
    exact ⟨.filter ⟨rfl, column, ⟨rfl, rfl⟩, trivial⟩,
      ⟨.mapColumns areaNames_respelled, ⟨.table _ _, trivial⟩, trivial⟩, trivial⟩
  obtain ⟨r, built, schemas, text, -⟩ := q.build_respelled outline spelled
  refine ⟨q, outline, made, other, spelled, r, built, ?_, text⟩
  cases schemas with
  | cons first _ => exact first.symm

end Crosstab
