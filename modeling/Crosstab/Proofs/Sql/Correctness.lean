import Crosstab.Proofs.Meaning.Integers
import Crosstab.Proofs.Sql.Clauses

/-!
# Compiled statements yield the rows of their queries

The statement of a query, evaluated by the rules of SQL, gives the rows that the query means, column
by column and in order, whatever the database and whatever the engine does with values.
-/

namespace Crosstab

open Sql

namespace Plan

variable {V : Type}

/-- The database has the tables of the plan, each with the columns that the plan needs. -/
def StoredIn (db : Tables V) {s : Schema} (p : Plan s) : Prop :=
  ∀ table ∈ p.tables, ∃ stored, db table.1 = some stored ∧
    ∀ id ∈ table.2, ∃ name ∈ stored.names, SameName name id

/-- The group columns and aggregates of each grouping. -/
def groupings {s : Schema} : Plan s → List (List String × List AggregateColumn)
  | table .. => []
  | groupBy source columns aggregates _ => (columns, aggregates) :: source.groupings
  | project source .. | filter source .. | sort source .. | extend source ..
  | mapColumns source .. | mapColumnsAt source .. => source.groupings
  | concat left right _ | join left right .. => left.groupings ++ right.groupings

/-- Every grouping has a group column or an aggregate that is not always null. -/
def Grouped {s : Schema} (p : Plan s) : Prop :=
  ∀ g ∈ p.groupings, g.1 ≠ [] ∨ ∃ a ∈ g.2, a.func ≠ .null

variable {E : Engine V} {db : Tables V}

/-- A table or subquery serves rows of a schema. -/
structure Serves (E : Engine V) (db : Tables V) (s : Schema) (ref : TableRef) (names : List String)
    (drawn rows : List (List V)) : Prop where
  draws : ref.rows E db = some (names, drawn)
  has : Has names s
  related : List.Forall₂ (StandsFor E s names) drawn rows
  sized : ∀ row ∈ rows, row.length = s.columns.length

theorem once_of_mem {names : List String} {id : String} (distinct : (names.map foldCase).Nodup)
    (mem : ∃ name ∈ names, SameName name id) : Once names id := by
  obtain ⟨name, hn, same⟩ := mem
  have once : (names.map foldCase).count (foldCase id) = 1 :=
    List.count_eq_one_of_mem distinct (same ▸ List.mem_map_of_mem hn)
  rw [List.count, List.countP_map] at once
  rw [Once, ← once]
  refine List.countP_congr fun n _ => ?_
  rw [decide_eq_true_iff, Function.comp_apply, beq_iff_eq, SameName]

/-- A stored table serves the rows of its plan. -/
theorem serves_table {name : String} {s : Schema} {named : name ≠ ""}
    (stored : (table name s named).StoredIn db) (asName : Option String) :
    ∃ names drawn, Serves E db s (.table name asName) names drawn
      ((table name s named).rows E db) := by
  obtain ⟨t, ht, mem⟩ := stored (name, s.ids) (List.mem_singleton.2 rfl)
  refine ⟨t.names, t.rows, ?_, ?_, ?_, (table name s named).rows_wide E db⟩
  · rw [TableRef.rows, ht]
    rfl
  · intro c hc
    exact once_of_mem t.distinct (mem c.id (List.mem_map_of_mem hc))
  · rw [Plan.rows, ht, List.forall₂_map_right_iff, List.forall₂_same]
    intro row hr
    refine ⟨t.wide row hr, fun c hc => ?_⟩
    exact (Schema.cell_map E (fun c => E.cell t.names row c.id) hc).symm

/-- A subquery serves the rows of its statement. -/
theorem serves_subquery {s : Schema} {p : Plan s} {next : Nat} {st : Statement}
    {rows : List (List V)} (h : p.statement next = .ok st) (found : st.rows E db = some rows)
    (sized : ∀ row ∈ rows, row.length = s.columns.length) (asName : String) :
    Serves E db s (.subquery st asName) s.ids rows rows where
  draws := by
    rw [TableRef.rows, found, (p.statement_compiled _ _ h).names]
    rfl
  has := has_ids s
  related := List.forall₂_same.2 fun row mem => standsFor_self (sized row mem)
  sized := sized

theorem wide_of_statement {s : Schema} {p : Plan s} {next : Nat} {st : Statement}
    (h : p.statement next = .ok st) {rows : List (List V)} (found : st.rows E db = some rows) :
    ∀ row ∈ rows, row.length = s.columns.length := by
  have compiled := p.statement_compiled next st h
  intro row mem
  rw [compiled.wellNamed.wide found row mem, compiled.names, Schema.ids, List.length_map]

/-- What a child becomes serves rows, if the statement of the child has any; where all groupings of
the child collapse rows, these are the rows of the child. -/
theorem DrawsFrom.serves {s : Schema} {p : Plan s} {number : Nat} {ref : TableRef}
    (h : p.DrawsFrom number ref) (stored : p.StoredIn db)
    (inside : ∀ st, p.statement (number + 1) = .ok st →
      ∃ rows, st.rows E db = some rows ∧ (p.Grouped → rows = p.rows E db)) :
    ∃ names drawn rows, Serves E db s ref names drawn rows ∧ (p.Grouped → rows = p.rows E db) := by
  cases h with
  | table =>
    obtain ⟨names, drawn, serves⟩ := serves_table stored _
    exact ⟨names, drawn, _, serves, fun _ => rfl⟩
  | statement compiled =>
    obtain ⟨rows, found, same⟩ := inside _ compiled
    have sized := wide_of_statement compiled found
    exact ⟨_, _, rows, serves_subquery compiled found sized _, same⟩

/-- A SELECT over one child has the rows of its clauses over the rows of the child. -/
theorem rows_select {ref : TableRef} {names : List String} {drawn : List (List V)}
    (h : ref.rows E db = some (names, drawn)) (columns : List SelectItem)
    (condition : Option Sql.Expr) (groups : List Sql.Expr) (keys : List (Sql.Expr × Bool)) :
    (Statement.select columns (.item ref) condition groups keys).rows E db =
      selectRows E [(ref.owner, names)] columns condition groups keys drawn := by
  rw [Statement.rows, Source.rows, h]
  rfl

theorem hasAggregate_eq_false {items : List SelectItem}
    (h : ∀ item ∈ items, ∀ e ∈ item.expr.parts, ¬ e.IsAggregate) : hasAggregate items = false := by
  simp only [hasAggregate, List.any_eq_false, decide_eq_true_eq, Bool.not_eq_true]
  exact fun item hi e he => h item hi e he

theorem hasAggregate_overColumns {s : Schema} {ranked : Prop} {items : List SelectItem}
    (h : ∀ item ∈ items, OverColumns s ranked item.expr) : hasAggregate items = false :=
  hasAggregate_eq_false fun item hi e he => ((h item hi).part e he).not_isAggregate

/-- What is drawn stands for the rows that are served, each of its width. -/
theorem Serves.wide {s : Schema} {ref : TableRef} {names : List String}
    {drawn rows : List (List V)} (serves : Serves E db s ref names drawn rows) :
    List.Forall₂ (fun d row => StandsFor E s names d row ∧ row.length = s.columns.length) drawn
      rows := by
  rw [List.forall₂_iff_zip]
  refine ⟨serves.related.length_eq, fun {d row} pair => ?_⟩
  exact ⟨List.forall₂_zip serves.related pair, serves.sized row (List.of_mem_zip pair).2⟩

/-- In the context of a row of a child, listing all columns yields the row of the plan. -/
theorem meanings_all {s : Schema} {names : List String} (has : Has names s) (owner : String)
    {c : Context V} {row : List V}
    (h : StandsFor E s names c.row row ∧ row.length = s.columns.length) :
    Expr.meanings E [(owner, names)] ((shown s).map (·.expr)) c = some row := by
  rw [meanings_shown (shows_single has h.1 owner) fun _ hc => hc, Schema.map_cell E h.2]

section
variable {s t : Schema} {ref : TableRef} {names : List String} {drawn rows : List (List V)}
  (serves : Serves E db s ref names drawn rows)
include serves

/-- Listing columns of a child yields their values. -/
theorem rows_shown (sub : ∀ c ∈ t.columns, c ∈ s.columns) :
    (Statement.plain (shown t) ref).rows E db =
      some (rows.map fun row => t.columns.map fun c => E.cell s.ids row c.id) := by
  have plain := hasAggregate_overColumns (overColumns_shown sub)
  rw [Statement.plain, rows_select serves.draws]
  exact selectRows_plain plain serves.related fun c row hr =>
    meanings_shown (shows_single serves.has hr ref.owner) sub

/-- Listing all columns of a child, under any names, yields its rows. -/
theorem rows_all {items : List SelectItem} (exprs : items.map (·.expr) = (shown s).map (·.expr)) :
    (Statement.plain items ref).rows E db = some rows := by
  have plain := hasAggregate_overColumns (overColumns_of_exprs exprs)
  rw [Statement.plain, rows_select serves.draws]
  refine (selectRows_plain plain serves.wide fun c row hr => ?_).trans
    (congrArg some (List.map_id _))
  rw [exprs]
  exact meanings_all serves.has ref.owner hr

/-- The WHERE clause of a filter keeps the rows for which the predicate is true. -/
theorem rows_filter {predicate : Expr} {condition : Sql.Expr}
    (checked : s.checkPredicate predicate = .ok ()) (h : predicate.sql s = .ok condition) :
    (Statement.select (shown s) (.item ref) (some condition) [] []).rows E db =
      some (rows.filter fun row => E.isTrue (predicate.value E s (fun _ => E.null) row)) := by
  obtain ⟨unranked, typed⟩ := Schema.checkPredicate_eq_ok_iff.1 checked
  have outcome (d row : List V)
      (hd : StandsFor E s names d row ∧ row.length = s.columns.length) :
      ∃ v, condition.meaning E [(ref.owner, names)] (.ofRow d) = some v ∧
        E.isTrue v = E.isTrue (predicate.value E s (fun _ => E.null) row) := by
    refine ⟨_, meaning_sql (c := .ofRow d) (shows_single serves.has hd.1 ref.owner) h typed ?_, rfl⟩
    simp [unranked]
  obtain ⟨kept, hk, related⟩ := keepTrue_of_forall₂ serves.wide outcome
  have plain := hasAggregate_overColumns (overColumns_shown fun _ (hc : _ ∈ s.columns) => hc)
  have filtered : whereTrue E [(ref.owner, names)] (some condition) drawn = some kept := hk
  rw [rows_select serves.draws, selectRows_where filtered]
  exact (selectRows_plain plain related fun c row hr => meanings_all serves.has ref.owner hr).trans
    (congrArg some (List.map_id _))

/-- The ORDER BY clause of a sort puts the rows in order. -/
theorem rows_sort {keys : List SortKey} {order : List (Sql.Expr × Bool)}
    (checked : s.checkSort keys = .ok ()) (h : keys.mapM (orderKey s) = .ok order) :
    (Statement.select (shown s) (.item ref) none [] order).rows E db =
      some (pick rows (E.arrange (rows.map (s.sortValues E keys)))) := by
  have nonempty : order ≠ [] := by
    rintro rfl
    exact (Schema.checkSort_eq_ok_iff.1 checked).1
      (List.forall₂_nil_right_iff.1 (mapM_eq_ok_iff.1 h))
  have plain := hasAggregate_overColumns (overColumns_shown fun _ (hc : _ ∈ s.columns) => hc)
  rw [rows_select serves.draws]
  exact selectRows_ordered plain nonempty serves.wide
    (fun c row hr => keyMeanings_orderKeys (shows_single serves.has hr.1 ref.owner) h)
    fun c row hr => meanings_all serves.has ref.owner hr

/-- The row number of SQL is the rank of the row. -/
theorem meaning_window {keys : List SortKey} {order : List (Sql.Expr × Bool)}
    (h : keys.mapM (orderKey s) = .ok order) (row : List V) (i : Nat) :
    (Sql.Expr.window "row_number" [] order).meaning E [(ref.owner, names)]
      ⟨row, none, some (drawn, i)⟩ = some (s.number E rows i keys) := by
  have values : drawn.mapM (fun d =>
      Expr.keyMeanings E [(ref.owner, names)] order (.ofRow d)) =
      some (rows.map (s.sortValues E keys)) := by
    rw [mapM_eq_some_iff, List.forall₂_map_right_iff]
    exact serves.related.imp fun d row hd =>
      keyMeanings_orderKeys (c := .ofRow d) (shows_single serves.has hd ref.owner) h
  simp only [Sql.Expr.meaning, values, bind, Option.bind_some]
  rfl

/-- A derived column is cast where its type is not the declared one. -/
theorem meaning_derivedExpr {type actual : DataType} {value : Expr}
    (typed : value.type s = .ok actual) {compiled : Sql.Expr} (h : value.sql s = .ok compiled)
    {d row : List V} (here : StandsFor E s names d row) (i : Nat) :
    Expr.meanings E [(ref.owner, names)] [derivedExpr s type value compiled]
        ⟨d, none, some (drawn, i)⟩ =
      some [if (value.type s).toOption = some type then
          value.value E s (s.number E rows i) row
        else E.cast type (value.value E s (s.number E rows i) row)] := by
  have inner : compiled.meaning E [(ref.owner, names)] ⟨d, none, some (drawn, i)⟩ =
      some (value.value E s (s.number E rows i) row) :=
    meaning_sql (shows_single serves.has here ref.owner) h typed fun _ keys order ho =>
      meaning_window serves ho d i
  unfold derivedExpr
  by_cases same : (value.type s).toOption = some type
  · simp only [if_pos same, Expr.meanings, inner]
    rfl
  · simp only [if_neg same, Expr.meanings, Sql.Expr.meaning, inner]
    rfl

/-- The select list of a derived column yields the extended rows. -/
theorem rows_extend {t : Schema} {column : String} {type : DataType} {value : Expr}
    (derived : s.extend column type value = .ok t) {compiled : Sql.Expr}
    (h : value.sql s = .ok compiled) :
    (Statement.plain (shown s ++ [⟨derivedExpr s type value compiled, some column⟩]) ref).rows
      E db = some (rows.mapIdx (s.extendRow E type value rows)) := by
  obtain ⟨-, actual, typed, -⟩ := Schema.extend_eq_ok_iff.1 derived
  have plain := hasAggregate_overColumns (extended_select derived h).2
  have len := serves.related.length_eq
  rw [Statement.plain, rows_select serves.draws]
  refine selectRows_frames plain ?_
  rw [List.forall₂_iff_get]
  refine ⟨by simpa [frames] using len, fun i hi hr => ?_⟩
  have inDrawn : i < drawn.length := by simpa [frames] using hi
  have inRows : i < rows.length := len ▸ inDrawn
  have here := (List.forall₂_iff_get.1 serves.wide).2 i inDrawn inRows
  have frame : (frames drawn).get ⟨i, hi⟩ = ⟨drawn[i], none, some (drawn, i)⟩ := by simp [frames]
  have out : (rows.mapIdx (s.extendRow E type value rows)).get ⟨i, hr⟩ =
      s.extendRow E type value rows i rows[i] := by
    simp
  rw [frame, out, List.map_append]
  exact meanings_append (meanings_all serves.has ref.owner here)
    (meaning_derivedExpr serves typed h here.1 i)

/-- The select list of a grouping yields a row for each group. -/
theorem rows_groupBy {columns : List String} {aggregates : List AggregateColumn}
    (grouped : columns ≠ [] ∨ ∃ a ∈ aggregates, a.func ≠ .null) {groups : List Sql.Expr}
    {rest : List SelectItem} (hg : groupColumns s columns = .ok groups)
    (hr : aggregates.mapM (aggregateItem s) = .ok rest) :
    (Statement.select (groups.map .plain ++ rest) (.item ref) none groups []).rows E db =
      some ((s.groups E columns rows).map (s.groupRow E columns aggregates)) := by
  rw [rows_select serves.draws]
  refine selectRows_grouped serves.has ref.owner hg hr (fun ungrouped => ?_) serves.related
  have called := (callsAggregate_aggregates hr).2 (grouped.resolve_left (absurd ungrouped))
  exact called.hasAggregate

/-- A SELECT of aggregates that are always null has as many rows as it draws. -/
theorem rows_nulls {aggregates : List AggregateColumn}
    {rest : List SelectItem} (h : aggregates.mapM (aggregateItem s) = .ok rest)
    (nulls : ∀ a ∈ aggregates, a.func = .null) :
    (Statement.select rest (.item ref) none [] []).rows E db =
      some (rows.map fun _ => aggregates.map fun _ => E.null) := by
  have columns : ∀ item ∈ rest, OverColumns s False item.expr := by
    intro item mem
    obtain ⟨a, ha, found⟩ := exists_of_mem_right (mapM_eq_ok_iff.1 h) mem
    obtain ⟨c, -, rfl⟩ := aggregateItem_eq_ok found
    rw [nulls a ha]
    exact overColumns_null s c.id c.type
  rw [rows_select serves.draws]
  exact selectRows_plain (hasAggregate_overColumns columns) serves.related fun c _ _ =>
    meanings_nulls h nulls

end

/-- The join of two children yields the joined rows. -/
theorem rows_join {s r t : Schema} {keys : List String} (kind : JoinKind) {nullSafe : Bool}
    (derived : s.join r keys = .ok t) {next later : Nat} (apart : next < later)
    {leftRef rightRef : TableRef} (leftOwner : leftRef.owner = aliasName next)
    (rightOwner : rightRef.owner = aliasName later)
    {ls rs : List String} {drawnLeft drawnRight lefts rights : List (List V)}
    (servesLeft : Serves E db s leftRef ls drawnLeft lefts)
    (servesRight : Serves E db r rightRef rs drawnRight rights) {items : List SelectItem}
    {condition : Sql.Expr}
    (hi : t.columns.mapM (joinItem s leftRef.owner rightRef.owner) = .ok items)
    (hc : joinCondition s r leftRef.owner rightRef.owner nullSafe keys = .ok condition) :
    (Statement.select items (.join (.item leftRef) kind rightRef condition) none [] []).rows E db =
      some (lefts.flatMap fun row =>
        (s.partners E r keys kind nullSafe rights row).map (s.joinRow E r keys row)) := by
  have distinct : ¬ SameName leftRef.owner rightRef.owner := by
    rw [leftOwner, rightOwner, sameName_aliasName]
    omega
  have plain : hasAggregate items = false := by
    rw [joinItems_eq hi]
    refine hasAggregate_eq_false fun item mem e he aggregate => ?_
    obtain ⟨c, -, rfl⟩ := List.mem_map.1 mem
    exact rowwise_qualified _ _ e he (.inl aggregate)
  obtain ⟨drawn, joined, shown⟩ := selectRows_joined servesLeft.has servesRight.has distinct
    derived kind hc hi plain servesLeft.related servesRight.related
  rw [Statement.rows, Source.rows, Source.rows, servesLeft.draws, servesRight.draws]
  simp only [bind, pure, Option.bind_some, List.singleton_append, joined]
  exact shown

/-- The statement of a grouping by nothing is a SELECT of its aggregates. -/
theorem select_of_groupBy {s t : Schema} {source : Plan s} {aggregates : List AggregateColumn}
    {derived : s.groupBy [] aggregates = .ok t} {number : Nat} {st : Statement}
    (h : (groupBy source [] aggregates derived).statement number = .ok st) :
    ∃ rest ref, st = .select rest (.item ref) none [] [] ∧ source.DrawsFrom number ref ∧
      aggregates.mapM (aggregateItem s) = .ok rest := by
  have .groupBy child grouped aggregated := emits_of_statement h
  obtain rfl := List.forall₂_nil_left_iff.1 (mapM_eq_ok_iff.1 grouped)
  exact ⟨_, _, rfl, child, aggregated⟩

/-- A compiled statement has rows. Where all groupings collapse rows, they are the rows of the
plan. -/
theorem exists_rows {s : Schema} (p : Plan s) (next : Nat) (st : Statement)
    (h : p.statement next = .ok st) (stored : p.StoredIn db) :
    ∃ rows, st.rows E db = some rows ∧ (p.Grouped → rows = p.rows E db) := by
  induction p generalizing next st with
  | table name s named =>
    cases emits_of_statement h
    obtain ⟨names, drawn, serves⟩ := serves_table stored none
    exact ⟨_, rows_all serves rfl, fun _ => rfl⟩
  | @project s t source columns derived ih =>
    have .project child := emits_of_statement h
    obtain ⟨_, _, rows, serves, same⟩ := child.serves stored fun st hs => ih _ st hs stored
    obtain ⟨-, found⟩ := Schema.project_eq_ok_iff.1 derived
    refine ⟨_, rows_shown serves (Schema.mem_of_found found), fun grouped => ?_⟩
    rw [same grouped]
    refine List.map_congr_left fun row _ => ?_
    exact (map_eq_map_of_forall₂ found fun name c hc => Schema.cell_found E hc).symm
  | filter source predicate checked ih =>
    have .filter child compiled := emits_of_statement h
    obtain ⟨_, _, rows, serves, same⟩ := child.serves stored fun st hs => ih _ st hs stored
    refine ⟨_, rows_filter serves checked compiled, fun grouped => ?_⟩
    rw [same grouped]
    rfl
  | groupBy source columns aggregates derived ih =>
    by_cases grouping : columns ≠ [] ∨ ∃ a ∈ aggregates, a.func ≠ .null
    · have .groupBy child groups aggregated := emits_of_statement h
      obtain ⟨_, _, rows, serves, same⟩ := child.serves stored fun st hs => ih _ st hs stored
      refine ⟨_, rows_groupBy serves grouping groups aggregated, fun grouped => ?_⟩
      rw [same (List.forall_mem_cons.1 grouped).2]
      rfl
    · -- All rows are one group for the plan, but the SELECT has no function over it.
      have refuted := grouping
      simp only [ne_eq, not_or, not_not, not_exists, not_and] at refuted
      obtain ⟨rfl, nulls⟩ := refuted
      obtain ⟨rest, ref, rfl, child, aggregated⟩ := select_of_groupBy h
      obtain ⟨_, _, rows, serves, -⟩ := child.serves stored fun st hs => ih _ st hs stored
      refine ⟨_, rows_nulls serves aggregated nulls, fun grouped => ?_⟩
      exact absurd (List.forall_mem_cons.1 grouped).1 grouping
  | sort source keys checked ih =>
    have .sort child ordered := emits_of_statement h
    obtain ⟨_, _, rows, serves, same⟩ := child.serves stored fun st hs => ih _ st hs stored
    refine ⟨_, rows_sort serves checked ordered, fun grouped => ?_⟩
    rw [same grouped]
    rfl
  | extend source column type value derived ih =>
    have .extend child valued := emits_of_statement h
    obtain ⟨_, _, rows, serves, same⟩ := child.serves stored fun st hs => ih _ st hs stored
    refine ⟨_, rows_extend serves derived valued, fun grouped => ?_⟩
    rw [same grouped]
    rfl
  | mapColumns source mapping derived ih =>
    have .mapColumns child renamed := emits_of_statement h
    obtain ⟨_, _, rows, serves, same⟩ := child.serves stored fun st hs => ih _ st hs stored
    have exprs := (renamed_select (Schema.types_of_mapColumns derived) renamed).2
    exact ⟨rows, rows_all serves exprs, same⟩
  | mapColumnsAt source mapping derived ih =>
    have .mapColumnsAt child renamed := emits_of_statement h
    obtain ⟨_, _, rows, serves, same⟩ := child.serves stored fun st hs => ih _ st hs stored
    have exprs := (renamed_select (Schema.types_of_mapColumnsAt derived) renamed).2
    exact ⟨rows, rows_all serves exprs, same⟩
  | concat left right derived ihl ihr =>
    have .concat leftChild rightChild := emits_of_statement h
    obtain ⟨storedLeft, storedRight⟩ := List.forall_mem_append.1 stored
    obtain ⟨_, _, lefts, servesLeft, sameLeft⟩ :=
      leftChild.serves storedLeft fun st hs => ihl _ st hs storedLeft
    obtain ⟨_, _, rights, servesRight, sameRight⟩ :=
      rightChild.serves storedRight fun st hs => ihr _ st hs storedRight
    rw [Statement.rows, rows_all servesLeft rfl, rows_all servesRight rfl]
    refine ⟨lefts ++ rights, rfl, fun grouped => ?_⟩
    obtain ⟨groupedLeft, groupedRight⟩ := List.forall_mem_append.1 grouped
    rw [sameLeft groupedLeft, sameRight groupedRight]
    rfl
  | join left right keys kind nullSafe derived ihl ihr =>
    have .join leftChild rightChild paired compiled := emits_of_statement h
    obtain ⟨storedLeft, storedRight⟩ := List.forall_mem_append.1 stored
    have leftOwner := (leftChild.drawn (left.statement_compiled _)).owner
    have rightOwner := (rightChild.drawn (right.statement_compiled _)).owner
    obtain ⟨_, _, lefts, servesLeft, sameLeft⟩ :=
      leftChild.serves storedLeft fun st hs => ihl _ st hs storedLeft
    obtain ⟨_, _, rights, servesRight, sameRight⟩ :=
      rightChild.serves storedRight fun st hs => ihr _ st hs storedRight
    refine ⟨_, rows_join kind derived (by omega) leftOwner rightOwner servesLeft servesRight paired
      compiled, fun grouped => ?_⟩
    obtain ⟨groupedLeft, groupedRight⟩ := List.forall_mem_append.1 grouped
    rw [sameLeft groupedLeft, sameRight groupedRight]
    rfl

theorem compiled_rows {s : Schema} (p : Plan s) (next : Nat) (st : Statement)
    (h : p.statement next = .ok st) (stored : p.StoredIn db) (grouped : p.Grouped) :
    st.rows E db = some (p.rows E db) := by
  obtain ⟨rows, found, same⟩ := p.exists_rows next st h stored
  rw [found, same grouped]

end Plan

/-- The statement of a query yields the columns and the rows of the query, and the statement for the
number of rows yields that number. -/
theorem Query.statement_rows {V : Type} (E : Engine V) (db : Tables V) (q : Query)
    (stored : q.plan.StoredIn db) (grouped : q.plan.Grouped) :
    (∀ st, q.statement = .ok st →
      st.names = q.schema.ids ∧ st.rows E db = some (q.rows E db)) ∧
    ∀ st, q.countStatement = .ok st →
      st.rows E db = some [[E.ordinal (q.rows E db).length]] := by
  constructor
  · intro st h
    exact ⟨(q.plan.statement_compiled 0 st h).names,
      q.plan.compiled_rows 0 st h stored grouped⟩
  · intro st h
    obtain ⟨rows, hr, h⟩ := bind_eq_ok_iff.1 h
    have inside := q.plan.compiled_rows (E := E) 0 rows hr stored grouped
    have child : (TableRef.subquery rows (aliasName q.plan.aliasCount)).rows E db =
        some (rows.names, q.rows E db) := by
      rw [TableRef.rows, inside]
      rfl
    rw [← pure_eq_ok_iff.1 h, Statement.plain, Plan.rows_select child]
    rfl

theorem statement_rows_rankedSales : ∃ q, rankedSales = .ok q ∧
    q.plan.StoredIn salesTables ∧ q.plan.Grouped ∧ ∃ st, q.statement = .ok st ∧
      st.names = q.schema.ids ∧ st.rows integers salesTables = some (q.rows integers salesTables) ∧
      q.rows integers salesTables = [
        [.text "north", .null, .int 1, .int 2],
        [.null, .int 3, .int 3, .int 3],
        [.null, .int 3, .int 3, .int 3],
        [.text "south", .int 2, .int 2, .int 2]] := by
  obtain ⟨q, hq, st, hs, tables, groupings, shown⟩ : ∃ q, rankedSales = .ok q ∧
      ∃ st, q.statement = .ok st ∧
        q.plan.tables = [("sales", ["Region", "amount"]), ("sales", ["Region", "amount"])] ∧
        q.plan.groupings = [(["region"], [⟨.uniq, "amount"⟩])] ∧
        q.rows integers salesTables = [
          [.text "north", .null, .int 1, .int 2],
          [.null, .int 3, .int 3, .int 3],
          [.null, .int 3, .int 3, .int 3],
          [.text "south", .int 2, .int 2, .int 2]] :=
    ⟨_, rfl, _, rfl, rfl, rfl, by decide +kernel⟩
  have stored : q.plan.StoredIn salesTables := by
    intro table h
    have only : table = ("sales", ["Region", "amount"]) := by simpa [tables] using h
    rw [only]
    exact ⟨salesTable, rfl, by decide⟩
  have grouped : q.plan.Grouped := by
    intro g h
    rw [groupings] at h
    rw [List.mem_singleton.1 h]
    exact .inl (by decide)
  obtain ⟨names, rows⟩ := (Query.statement_rows integers salesTables q stored grouped).1 st hs
  exact ⟨q, hq, stored, grouped, st, hs, names, rows, shown⟩

end Crosstab
