import Crosstab.Proofs.Meaning.Groups
import Crosstab.Proofs.Sql.Scalars
import Crosstab.Proofs.Sql.WellNamed

namespace Crosstab

section
variable {α β : Type} {R : α → β → Prop} {l : List α} {r : List β}

theorem forall₂_pick (h : List.Forall₂ R l r) (positions : List Nat) :
    List.Forall₂ R (pick l positions) (pick r positions) := by
  induction positions with
  | nil => exact .nil
  | cons i positions ih =>
    by_cases hi : i < l.length
    · have hr : i < r.length := h.length_eq ▸ hi
      simp only [pick, List.filterMap_cons, List.getElem?_eq_getElem hi,
        List.getElem?_eq_getElem hr]
      exact .cons (h.get hi hr) ih
    · have hr : r.length ≤ i := h.length_eq ▸ Nat.not_lt.1 hi
      simp only [pick, List.filterMap_cons, List.getElem?_eq_none (Nat.not_lt.1 hi),
        List.getElem?_eq_none hr]
      exact ih

/-- Filtering related lists by conditions with the same outcome keeps them related. -/
theorem keepTrue_of_forall₂ {V : Type} {E : Engine V} {condition : α → Option V} {keep : β → Bool}
    (h : List.Forall₂ R l r)
    (each : ∀ a b, R a b → ∃ v, condition a = some v ∧ E.isTrue v = keep b) :
    ∃ kept, keepTrue E condition l = some kept ∧ List.Forall₂ R kept (r.filter keep) := by
  induction h with
  | nil => exact ⟨[], rfl, .nil⟩
  | @cons a b l r first _ ih =>
    obtain ⟨kept, hk, related⟩ := ih
    obtain ⟨v, hv, same⟩ := each a b first
    simp only [keepTrue, hv, hk, List.filter_cons, ← same]
    by_cases keeps : E.isTrue v = true
    · rw [if_pos keeps]
      exact ⟨a :: kept, by simp [keeps], .cons first related⟩
    · rw [if_neg keeps]
      exact ⟨kept, by simp [keeps], related⟩

end

namespace Sql

variable {V : Type} (E : Engine V)

/-- A row that a table or subquery serves under its names stands for a row of a plan. -/
def StandsFor (s : Schema) (names : List String) (drawn row : List V) : Prop :=
  drawn.length = names.length ∧ ∀ c ∈ s.columns, E.cell names drawn c.id = E.cell s.ids row c.id

/-- A table or subquery has every column of a schema once. -/
def Has (names : List String) (s : Schema) : Prop := ∀ c ∈ s.columns, Once names c.id

theorem has_ids (s : Schema) : Has s.ids s := by
  intro c hc
  rw [Once, List.countP_eq_length_filter, meansOne_of_mem hc]
  rfl

section
variable {E : Engine V} {s : Schema} {names : List String}

theorem standsFor_self {row : List V} (wide : row.length = s.columns.length) :
    StandsFor E s s.ids row row :=
  ⟨by rw [wide, Schema.ids, List.length_map], fun _ _ => rfl⟩

theorem shows_single (has : Has names s) {drawn row : List V} (h : StandsFor E s names drawn row)
    (owner : String) : Shows E [(owner, names)] s drawn row := by
  intro c hc
  rw [value?_single E (has c hc) h.1, h.2 c hc]

/-! ## Select lists over rows -/

variable {scope : Scope} {c : Context V} {row : List V}

/-- Listing columns as they are yields their values. -/
theorem meanings_shown (shows : Shows E scope s c.row row) {t : Schema}
    (sub : ∀ c ∈ t.columns, c ∈ s.columns) :
    Expr.meanings E scope ((shown t).map (·.expr)) c =
      some (t.columns.map fun c => E.cell s.ids row c.id) := by
  rw [meanings_eq_some_iff, shown, List.map_map, List.forall₂_map_left_iff,
    List.forall₂_map_right_iff, List.forall₂_same]
  intro column hc
  exact shows column (sub column hc)

/-- The contexts of a select list without aggregates. -/
def frames (drawn : List (List V)) : List (Context V) :=
  drawn.mapIdx fun i row => ⟨row, none, some (drawn, i)⟩

/-- Contexts of a select list show rows of a schema. -/
theorem forall₂_frames {R : List V → List V → Prop} {drawn rows : List (List V)}
    (h : List.Forall₂ R drawn rows) :
    List.Forall₂ (fun (c : Context V) row => R c.row row) (frames drawn) rows := by
  rw [List.forall₂_iff_get] at h ⊢
  refine ⟨by simpa [frames] using h.1, fun i hi hr => ?_⟩
  have bound : i < drawn.length := by simpa [frames] using hi
  simpa [frames] using h.2 i bound hr

theorem selectRows_frames {columns : List SelectItem} (plain : hasAggregate columns = false)
    {drawn out : List (List V)}
    (each : List.Forall₂
      (fun c row => Expr.meanings E scope (columns.map (·.expr)) c = some row) (frames drawn) out) :
    selectRows E scope columns none [] [] drawn = some out := by
  have contexts : contexts E scope columns [] drawn = some (frames drawn) := by
    simp [Sql.contexts, plain, frames]
  simp only [selectRows, whereTrue, ordered, contexts, bind, Option.bind_some,
    mapM_eq_some_iff.2 each]

theorem selectRows_plain {columns : List SelectItem} (plain : hasAggregate columns = false)
    {R : List V → List V → Prop} {drawn rows : List (List V)} (h : List.Forall₂ R drawn rows)
    {out : List V → List V}
    (each : ∀ c row, R c.row row →
      Expr.meanings E scope (columns.map (·.expr)) c = some (out row)) :
    selectRows E scope columns none [] [] drawn = some (rows.map out) := by
  refine selectRows_frames plain ?_
  rw [List.forall₂_map_right_iff]
  exact (forall₂_frames h).imp each

/-- A condition is applied before anything else. -/
theorem selectRows_where {columns : List SelectItem} {condition : Option Expr} {groups : List Expr}
    {keys : List (Expr × Bool)} {drawn kept : List (List V)}
    (h : whereTrue E scope condition drawn = some kept) :
    selectRows E scope columns condition groups keys drawn =
      selectRows E scope columns none groups keys kept := by
  unfold selectRows
  rw [h]
  rfl

theorem selectRows_ordered {columns : List SelectItem} (plain : hasAggregate columns = false)
    {keys : List (Expr × Bool)} (nonempty : keys ≠ []) {R : List V → List V → Prop}
    {drawn rows : List (List V)} (h : List.Forall₂ R drawn rows)
    {order : List V → List (V × Bool)}
    (sorted : ∀ c row, R c.row row → Expr.keyMeanings E scope keys c = some (order row))
    (each : ∀ c row, R c.row row →
      Expr.meanings E scope (columns.map (·.expr)) c = some row) :
    selectRows E scope columns none [] keys drawn =
      some (pick rows (E.arrange (rows.map order))) := by
  have contexts : contexts E scope columns [] drawn = some (frames drawn) := by
    simp [Sql.contexts, plain, frames]
  have frame := forall₂_frames h
  have ordered : ordered E scope keys (frames drawn) =
      some (pick (frames drawn) (E.arrange (rows.map order))) := by
    have values : (frames drawn).mapM (Expr.keyMeanings E scope keys) =
        some (rows.map order) := by
      rw [mapM_eq_some_iff, List.forall₂_map_right_iff]
      exact frame.imp sorted
    cases keys with
    | nil => exact absurd rfl nonempty
    | cons k keys => simp only [Sql.ordered, values, bind, pure, Option.bind_some]
  have shown := mapM_eq_some_iff.2
    ((forall₂_pick frame (E.arrange (rows.map order))).imp each)
  simp only [selectRows, whereTrue, contexts, ordered, bind, Option.bind_some]
  exact shown

/-! ## Widths -/

theorem length_of_selectRows {columns : List SelectItem} {condition : Option Expr}
    {groups : List Expr} {keys : List (Expr × Bool)} {drawn out : List (List V)}
    (h : selectRows E scope columns condition groups keys drawn = some out) :
    ∀ row ∈ out, row.length = columns.length := by
  obtain ⟨kept, -, h⟩ := Option.bind_eq_some_iff.1 h
  obtain ⟨made, -, h⟩ := Option.bind_eq_some_iff.1 h
  obtain ⟨sorted, -, h⟩ := Option.bind_eq_some_iff.1 h
  intro row mem
  obtain ⟨c, -, shown⟩ := exists_of_mem_right (mapM_eq_some_iff.1 h) mem
  have len := ((meanings_eq_some_iff E).1 shown).length_eq
  rw [← len, List.length_map]

/-- The rows of a statement are as wide as it has columns. -/
theorem Statement.WellNamed.wide {db : Tables V} {tables : List (String × List String)}
    {st : Statement} (named : st.WellNamed tables) {rows : List (List V)}
    (h : st.rows E db = some rows) : ∀ row ∈ rows, row.length = st.names.length := by
  cases named with
  | select =>
    obtain ⟨⟨scope, drawn⟩, -, h⟩ := Option.bind_eq_some_iff.1 h
    rw [Statement.names, List.length_map]
    exact length_of_selectRows h
  | @union _ _ left right all l r same =>
    obtain ⟨lefts, hl, h⟩ := Option.bind_eq_some_iff.1 h
    obtain ⟨rights, hr, h⟩ := Option.bind_eq_some_iff.1 h
    have both : ∀ row ∈ lefts ++ rights, row.length = left.names.length := by
      refine List.forall_mem_append.2 ⟨l.wide hl, fun row mem => ?_⟩
      rw [r.wide hr row mem, same.length_eq]
    intro row mem
    rw [← Option.some.inj h] at mem
    cases all with
    | true => exact both row mem
    | false => exact both row (mem_of_mem_pick mem)

/-! ## Calls of aggregates -/

/-- The functions over the rows of a group. -/
def aggregateNames : List String := ["sum", "avg", "count", "min", "max"]

/-- The select list calls a function over the rows of a group. -/
def CallsAggregate (items : List SelectItem) : Prop :=
  ∃ item ∈ items, ∃ name ∈ aggregateNames, ∃ args, .call name args ∈ item.expr.parts

theorem CallsAggregate.hasAggregate {items : List SelectItem} (h : CallsAggregate items) :
    hasAggregate items = true := by
  obtain ⟨item, hi, name, -, args, mem⟩ := h
  rw [Sql.hasAggregate, List.any_eq_true]
  refine ⟨item, hi, ?_⟩
  rw [List.any_eq_true]
  exact ⟨_, mem, rfl⟩

/-- Every aggregate but the one that is always null is a function over the group. -/
theorem exists_call {func : Aggregate} (h : func ≠ .null) (column : String) (type : DataType) :
    ∃ name ∈ aggregateNames, ∃ args, .call name args ∈ (aggregateExpr func column type).parts := by
  have whole (name : String) : Expr.call name [.named column] ∈
      (Expr.call name [.named column]).parts := List.mem_cons_self
  cases func with
  | sum => exact ⟨"sum", by decide, _, whole "sum"⟩
  | avg => exact ⟨"avg", by decide, _, whole "avg"⟩
  | count => exact ⟨"count", by decide, _, whole "count"⟩
  | min => exact ⟨"min", by decide, _, whole "min"⟩
  | max => exact ⟨"max", by decide, _, whole "max"⟩
  | uniq =>
    refine ⟨"min", by decide, [.named column], ?_⟩
    simp [aggregateExpr, Expr.parts, Expr.inner, Expr.innerBranches]
  | null => exact absurd rfl h

/-- The aggregate that is always null is no function over the group. -/
theorem overColumns_null (s : Schema) (column : String) (type : DataType) :
    OverColumns s False (aggregateExpr .null column type) :=
  .cast type (.literal .null)

/-- The select list of aggregates calls none only if all of them are always null. -/
theorem callsAggregate_aggregates {s : Schema} {aggregates : List AggregateColumn}
    {rest : List SelectItem} (h : aggregates.mapM (aggregateItem s) = .ok rest) :
    CallsAggregate rest ↔ ∃ a ∈ aggregates, a.func ≠ .null := by
  constructor
  · rintro ⟨item, hi, name, -, args, mem⟩
    obtain ⟨a, ha, found⟩ := exists_of_mem_right (mapM_eq_ok_iff.1 h) hi
    obtain ⟨c, -, rfl⟩ := aggregateItem_eq_ok found
    refine ⟨a, ha, fun null => ?_⟩
    rw [null] at mem
    exact ((overColumns_null s c.id c.type).part _ mem).not_isAggregate trivial
  · rintro ⟨a, ha, func⟩
    obtain ⟨item, hi, found⟩ := exists_of_mem_left (mapM_eq_ok_iff.1 h) ha
    obtain ⟨c, -, rfl⟩ := aggregateItem_eq_ok found
    exact ⟨_, hi, exists_call func c.id c.type⟩

/-! ## Select lists over groups -/

/-- The context of a group in SQL, by the rows of a plan that the members stand for. -/
def OfMembers (E : Engine V) (s : Schema) (names : List String) (c : Context V)
    (members : List (List V)) : Prop :=
  ∃ drawn, c = ⟨drawn.headD [], some drawn, none⟩ ∧
    List.Forall₂ (StandsFor E s names) drawn members

theorem meanings_groupColumns (shows : Shows E scope s c.row row) {columns : List String}
    {groups : List Expr} (h : groupColumns s columns = .ok groups) :
    Expr.meanings E scope groups c = some (columns.map (E.cell s.ids row)) := by
  have each := mapM_eq_ok_iff.1 h
  clear h
  induction each with
  | nil => rfl
  | cons first _ ih =>
    obtain ⟨id, hid, he⟩ := bind_eq_ok_iff.1 first
    rw [← pure_eq_ok_iff.1 he]
    simp only [Expr.meanings, meaning_canonical shows hid, ih]
    rfl

/-- A SELECT that groups has one context for each group. -/
theorem contexts_groups (has : Has names s) (owner : String) {items : List SelectItem}
    {columns : List String} {groups : List Expr} (h : groupColumns s columns = .ok groups)
    (grouped : columns = [] → hasAggregate items = true) {drawn rows : List (List V)}
    (related : List.Forall₂ (StandsFor E s names) drawn rows) :
    ∃ contexts, Sql.contexts E [(owner, names)] items groups drawn = some contexts ∧
      List.Forall₂ (OfMembers E s names) contexts (s.groups E columns rows) ∧
      (columns ≠ [] → ∀ members ∈ s.groups E columns rows, members ≠ []) := by
  by_cases ungrouped : columns = []
  · subst ungrouped
    obtain rfl := List.forall₂_nil_left_iff.1 (mapM_eq_ok_iff.1 h)
    refine ⟨[⟨drawn.headD [], some drawn, none⟩], ?_, ?_, fun ne => absurd rfl ne⟩
    · simp [Sql.contexts, grouped rfl]
    · rw [Schema.groups, if_pos rfl]
      exact .cons ⟨drawn, rfl, related⟩ .nil
  · have nonempty : groups ≠ [] := by
      rintro rfl
      exact ungrouped (List.forall₂_nil_right_iff.1 (mapM_eq_ok_iff.1 h))
    obtain ⟨keyed, hk⟩ : ∃ keyed, keyed = rows.map fun row => columns.map (E.cell s.ids row) :=
      ⟨_, rfl⟩
    have keys : drawn.mapM (fun row => Expr.meanings E [(owner, names)] groups (.ofRow row)) =
        some keyed := by
      rw [hk, mapM_eq_some_iff, List.forall₂_map_right_iff]
      exact related.imp fun d row hd =>
        meanings_groupColumns (c := .ofRow d) (shows_single has hd owner) h
    have members : s.groups E columns rows = (E.classes keyed).map (pick rows) := by
      rw [Schema.groups, if_neg ungrouped, hk]
    refine ⟨(E.classes keyed).map fun positions =>
      ⟨(pick drawn positions).headD [], some (pick drawn positions), none⟩, ?_, ?_, ?_⟩
    · cases groups with
      | nil => exact absurd rfl nonempty
      | cons e groups => simp only [Sql.contexts, keys, bind, pure, Option.bind_some]
    · rw [members, List.forall₂_map_left_iff, List.forall₂_map_right_iff, List.forall₂_same]
      intro positions _
      exact ⟨_, rfl, forall₂_pick related positions⟩
    · rw [members]
      intro _ group hg
      obtain ⟨positions, hp, rfl⟩ := List.mem_map.1 hg
      exact Engine.ne_nil_of_mem_classes hp (by rw [hk, List.length_map])

/-- An aggregate of a column over a group whose rows have the values in that column. -/
theorem meaning_call {group : List (List V)} (grouped : c.group = some group) {column : String}
    {values : List V} (drawn : group.mapM (scope.value? none column) = some values)
    (function : String) {apply : List V → V} (known : aggregate? E function = some apply) :
    Expr.meaning E scope (.call function [.named column]) c = some (apply values) := by
  have each : group.mapM (fun row => Expr.meanings E scope [.named column] (.ofRow row)) =
      some (values.map fun v => [v]) := by
    rw [mapM_eq_some_iff] at drawn ⊢
    rw [List.forall₂_map_right_iff]
    refine drawn.imp fun row v value => ?_
    simp only [Expr.meanings, Expr.named, Expr.meaning, Context.ofRow, value]
    rfl
  have flat : (values.map fun v => [v]).flatten = values := by
    rw [← List.flatMap_def, List.flatMap_singleton']
  simp only [Expr.named] at each
  simp only [Expr.named, Expr.meaning, grouped, known, each, bind, Option.bind_some, flat]
  rfl

/-- The aggregate that is always null is a constant, in a group or not. -/
theorem meaning_nullExpr (column : String) (type : DataType) :
    Expr.meaning E scope (aggregateExpr .null column type) c = some E.null := by
  have cast : Expr.meaning E scope (aggregateExpr .null column type) c =
      some (E.cast type (E.constant .null)) := rfl
  rw [cast, E.cast_null]
  rfl

theorem meaning_aggregateExpr {group : List (List V)} (grouped : c.group = some group)
    {column : String} {values : List V}
    (drawn : group.mapM (scope.value? none column) = some values) (func : Aggregate)
    (type : DataType) :
    Expr.meaning E scope (aggregateExpr func column type) c = some (func.apply E values) := by
  have call (function : String) {apply : List V → V}
      (known : aggregate? E function = some apply) := meaning_call grouped drawn function known
  cases func with
  | sum => exact call "sum" rfl
  | avg => exact call "avg" rfl
  | count => exact call "count" rfl
  | min => exact call "min" rfl
  | max => exact call "max" rfl
  | uniq =>
    have low := call "min" rfl
    have equal := meaning_binary E .eq low (call "max" rfl)
    have choice : Expr.meaning E scope (aggregateExpr .uniq column type) c =
        Expr.branchMeaning E scope [(.binary (.call "min" [.named column]) .eq
          (.call "max" [.named column]), .call "min" [.named column])] (some E.null) c := rfl
    rw [choice, Expr.branchMeaning, equal, low]
    exact (apply_ite some _ _ _).symm
  | null => exact meaning_nullExpr column type

/-- The rows of a group have the values of the rows that they stand for. -/
theorem OfMembers.values (owner : String) (has : Has names s) {members : List (List V)}
    (of : OfMembers E s names c members) {column : Column} (mem : column ∈ s.columns) :
    ∃ group, c.group = some group ∧ group.mapM (Scope.value? [(owner, names)] none column.id) =
      some (members.map fun row => E.cell s.ids row column.id) := by
  obtain ⟨drawn, rfl, related⟩ := of
  refine ⟨drawn, rfl, ?_⟩
  rw [mapM_eq_some_iff, List.forall₂_map_right_iff]
  exact related.imp fun d row hd => shows_single has hd owner column mem

theorem meanings_append {left right : List Expr} {v w : List V}
    (hl : Expr.meanings E scope left c = some v) (hr : Expr.meanings E scope right c = some w) :
    Expr.meanings E scope (left ++ right) c = some (v ++ w) := by
  rw [meanings_eq_some_iff] at hl hr ⊢
  exact List.rel_append hl hr

/-- The group columns show the values of the first row. -/
theorem meanings_ofMembers (has : Has names s) (owner : String) {columns : List String}
    {groups : List Expr} (h : groupColumns s columns = .ok groups) {members : List (List V)}
    (nonempty : columns ≠ [] → members ≠ []) (of : OfMembers E s names c members) :
    Expr.meanings E [(owner, names)] groups c =
      some (columns.map (E.cell s.ids (members.headD []))) := by
  by_cases ungrouped : columns = []
  · subst ungrouped
    obtain rfl := List.forall₂_nil_left_iff.1 (mapM_eq_ok_iff.1 h)
    rfl
  · obtain ⟨drawn, rfl, related⟩ := of
    cases related with
    | nil => exact absurd rfl (nonempty ungrouped)
    | cons first _ =>
      refine meanings_groupColumns ?_ h
      exact shows_single has first owner

theorem meanings_aggregates (has : Has names s) (owner : String)
    {aggregates : List AggregateColumn} {rest : List SelectItem}
    (h : aggregates.mapM (aggregateItem s) = .ok rest) {members : List (List V)}
    (of : OfMembers E s names c members) :
    Expr.meanings E [(owner, names)] (rest.map (·.expr)) c = some (aggregates.map fun a =>
      a.func.apply E (members.map fun row => E.cell s.ids row a.column)) := by
  have each := mapM_eq_ok_iff.1 h
  clear h
  induction each with
  | nil => rfl
  | @cons a item _ _ first _ ih =>
    obtain ⟨column, found, rfl⟩ := aggregateItem_eq_ok first
    obtain ⟨group, grouped, drawn⟩ := of.values owner has (Schema.find?_eq_some_iff.1 found).1
    have value := meaning_aggregateExpr (E := E) grouped drawn a.func column.type
    have cells : (members.map fun row => E.cell s.ids row column.id) =
        members.map fun row => E.cell s.ids row a.column :=
      List.map_congr_left fun row _ => (Schema.cell_found E found).symm
    simp only [List.map_cons, Expr.meanings, value, ih, cells]
    rfl

/-- Aggregates that are always null are null in every context. -/
theorem meanings_nulls {aggregates : List AggregateColumn} {rest : List SelectItem}
    (h : aggregates.mapM (aggregateItem s) = .ok rest) (nulls : ∀ a ∈ aggregates, a.func = .null) :
    Expr.meanings E scope (rest.map (·.expr)) c = some (aggregates.map fun _ => E.null) := by
  rw [meanings_eq_some_iff, List.forall₂_map_left_iff, List.forall₂_map_right_iff]
  refine ((forall₂_mem (mapM_eq_ok_iff.1 h)).imp fun a item ⟨mem, found⟩ => ?_).flip
  obtain ⟨column, -, rfl⟩ := aggregateItem_eq_ok found
  simp only [nulls a mem]
  exact meaning_nullExpr column.id column.type

/-- The select list of a grouping yields the row of each group. -/
theorem selectRows_grouped (has : Has names s) (owner : String) {columns : List String}
    {aggregates : List AggregateColumn} {groups : List Expr} {rest : List SelectItem}
    (hg : groupColumns s columns = .ok groups)
    (hr : aggregates.mapM (aggregateItem s) = .ok rest)
    (grouped : columns = [] → hasAggregate rest = true) {drawn rows : List (List V)}
    (related : List.Forall₂ (StandsFor E s names) drawn rows) :
    selectRows E [(owner, names)] (groups.map .plain ++ rest) none groups [] drawn =
      some ((s.groups E columns rows).map (s.groupRow E columns aggregates)) := by
  have hasOne : columns = [] → hasAggregate (groups.map .plain ++ rest) = true := by
    intro ungrouped
    rw [hasAggregate, List.any_append, Bool.or_eq_true]
    exact .inr (grouped ungrouped)
  obtain ⟨contexts, hc, each, nonempty⟩ := contexts_groups has owner hg hasOne related
  have items : (groups.map SelectItem.plain ++ rest).map (·.expr) =
      groups ++ rest.map (·.expr) := by
    rw [List.map_append, List.map_map]
    exact congrArg (· ++ _) (List.map_id groups)
  have out : contexts.mapM (fun c => Expr.meanings E [(owner, names)]
      ((groups.map SelectItem.plain ++ rest).map (·.expr)) c) =
      some ((s.groups E columns rows).map (s.groupRow E columns aggregates)) := by
    rw [items, mapM_eq_some_iff, List.forall₂_map_right_iff, List.forall₂_iff_zip]
    refine ⟨each.length_eq, fun {c members} pair => ?_⟩
    have of := List.forall₂_zip each pair
    have some : columns ≠ [] → members ≠ [] := fun ne =>
      nonempty ne members (List.of_mem_zip pair).2
    exact meanings_append (meanings_ofMembers has owner hg some of)
      (meanings_aggregates has owner hr of)
  simp only [selectRows, whereTrue, ordered, hc, bind, Option.bind_some]
  exact out

end

/-! ## Joins -/

section
variable {E : Engine V} {s r t : Schema} {keys : List String} {ls rs : List String} {a b : String}
  {left right : List V}

/-- Rows of the two sides of a join, one after the other. -/
structure Beside (E : Engine V) (s r : Schema) (ls rs : List String)
    (drawn left right : List V) : Prop where
  parts : ∃ dl dr, drawn = dl ++ dr ∧ StandsFor E s ls dl left ∧ StandsFor E r rs dr right

variable {c : Context V}

theorem meaning_ofLeft (hasLeft : Has ls s) (distinct : ¬ SameName a b)
    (beside : Beside E s r ls rs c.row left right) {column : Column} (mem : column ∈ s.columns) :
    (Expr.qualified a column.id).meaning E [(a, ls), (b, rs)] c =
      some (E.cell s.ids left column.id) := by
  obtain ⟨dl, dr, split, hl, -⟩ := beside.parts
  have found : Scope.value? [(a, ls), (b, rs)] (some a) column.id (dl ++ dr) =
      some (E.cell ls dl column.id) :=
    value?_left E (fun h => distinct h.symm) (hasLeft column mem) hl.1
  rw [Expr.qualified, Expr.meaning, split, found, hl.2 column mem]

theorem meaning_ofRight (hasRight : Has rs r) (distinct : ¬ SameName a b)
    (beside : Beside E s r ls rs c.row left right) {column : Column} (mem : column ∈ r.columns) :
    (Expr.qualified b column.id).meaning E [(a, ls), (b, rs)] c =
      some (E.cell r.ids right column.id) := by
  obtain ⟨dl, dr, split, hl, hr⟩ := beside.parts
  have found : Scope.value? [(a, ls), (b, rs)] (some b) column.id (dl ++ dr) =
      some (E.cell rs dr column.id) :=
    value?_right E distinct (hasRight column mem) hr.1 hl.1
  rw [Expr.qualified, Expr.meaning, split, found, hr.2 column mem]

/-- The select list of a join yields the joined row. -/
theorem meanings_joinItems (hasLeft : Has ls s) (hasRight : Has rs r) (distinct : ¬ SameName a b)
    (beside : Beside E s r ls rs c.row left right) (derived : s.join r keys = .ok t)
    {items : List SelectItem} (h : t.columns.mapM (joinItem s a b) = .ok items) :
    Expr.meanings E [(a, ls), (b, rs)] (items.map (·.expr)) c =
      some (s.joinRow E r keys left right) := by
  rw [joinItems_eq h, ← Schema.map_joinRow E derived, List.map_map, meanings_eq_some_iff,
    List.forall₂_map_left_iff, List.forall₂_map_right_iff, List.forall₂_same]
  intro column mem
  by_cases has : s.has column.id = true
  · simp only [Function.comp_apply, SelectItem.plain, has, if_true]
    exact meaning_ofLeft hasLeft distinct beside (Schema.mem_left_of_has derived mem has)
  · have has : s.has column.id = false := Bool.not_eq_true _ ▸ has
    simp only [Function.comp_apply, SelectItem.plain, has, Bool.false_eq_true, if_false]
    exact meaning_ofRight hasRight distinct beside
      (Schema.mem_right_of_not_has derived mem has)

/-- The condition of a join is true for rows that agree. -/
theorem meaning_joinCondition (hasLeft : Has ls s) (hasRight : Has rs r)
    (distinct : ¬ SameName a b) (beside : Beside E s r ls rs c.row left right)
    (derived : s.join r keys = .ok t) {nullSafe : Bool}
    {condition : Expr} (h : joinCondition s r a b nullSafe keys = .ok condition) :
    ∃ v, condition.meaning E [(a, ls), (b, rs)] c = some v ∧
      E.isTrue v = s.agree E r keys nullSafe left right := by
  obtain ⟨value, hv⟩ : ∃ value : String → V, value = fun key =>
      (if nullSafe then E.is else E.binary .eq) (E.cell s.ids left key) (E.cell r.ids right key) :=
    ⟨_, rfl⟩
  have each : List.Forall₂ (fun e v => Expr.meaning E [(a, ls), (b, rs)] e c = some v)
      (keys.map (keyComparison s r a b (if nullSafe then .is else .eq))) (keys.map value) := by
    rw [List.forall₂_map_left_iff, List.forall₂_map_right_iff, List.forall₂_same]
    intro key hk
    obtain ⟨cl, cr, hl, hr, -⟩ := Schema.key_of_join derived hk
    have ofLeft := meaning_ofLeft hasLeft distinct beside (Schema.find?_eq_some_iff.1 hl).1
    have ofRight := meaning_ofRight hasRight distinct beside (Schema.find?_eq_some_iff.1 hr).1
    rw [← Schema.cell_found E hl] at ofLeft
    rw [← Schema.cell_found E hr] at ofRight
    rw [keyComparison, idOf_eq hl, idOf_eq hr, meaning_binary E _ ofLeft ofRight, hv]
    cases nullSafe <;> rfl
  have agree : s.agree E r keys nullSafe left right = (keys.map value).all E.isTrue := by
    rw [Schema.agree, List.all_map, hv]
    cases nullSafe <;> rfl
  cases keys with
  | nil => exact absurd rfl (Schema.join_eq_ok_iff.1 derived).1
  | cons key keys =>
    refine ⟨_, meaning_joined E (joinCondition_eq h) each, ?_⟩
    rw [agree, List.map_cons, List.all_cons]
    exact E.isTrue_foldl_and _ _

/-- Each row of the left side is paired with the rows that agree with it. -/
theorem joinedRows_related (hasLeft : Has ls s) (hasRight : Has rs r) (distinct : ¬ SameName a b)
    (derived : s.join r keys = .ok t) (kind : JoinKind) {nullSafe : Bool} {condition : Expr}
    (h : joinCondition s r a b nullSafe keys = .ok condition) {dl left : List V}
    (hl : StandsFor E s ls dl left) {drawn rights : List (List V)}
    (hr : List.Forall₂ (StandsFor E r rs) drawn rights) :
    ∃ out, joinedRows E [(a, ls), (b, rs)] kind condition rs.length drawn dl = some out ∧
      List.Forall₂ (fun d right => Beside E s r ls rs d left right) out
        (s.partners E r keys kind nullSafe rights left) := by
  have outcome (dr right : List V) (hd : StandsFor E r rs dr right) :
      ∃ v, condition.meaning E [(a, ls), (b, rs)] (.ofRow (dl ++ dr)) = some v ∧
        E.isTrue v = s.agree E r keys nullSafe left right :=
    meaning_joinCondition hasLeft hasRight distinct ⟨dl, dr, rfl, hl, hd⟩ derived h
  obtain ⟨found, hf, related⟩ := keepTrue_of_forall₂ hr outcome
  have beside : List.Forall₂ (fun d right => Beside E s r ls rs d left right)
      (found.map (dl ++ ·)) (rights.filter (s.agree E r keys nullSafe left)) := by
    rw [List.forall₂_map_left_iff]
    exact related.imp fun dr right hd => ⟨dl, dr, rfl, hl, hd⟩
  have none : found = [] ↔ rights.filter (s.agree E r keys nullSafe left) = [] := by
    rw [← List.length_eq_zero_iff, ← List.length_eq_zero_iff, related.length_eq]
  refine ⟨_, by simp only [joinedRows, hf, bind, pure, Option.bind_some]; rfl, ?_⟩
  unfold Schema.partners
  simp only [none]
  split
  · have nulls : StandsFor E r rs (List.replicate rs.length E.null)
        (List.replicate r.columns.length E.null) :=
      ⟨List.length_replicate .., fun c _ => by rw [E.cell_nulls, E.cell_nulls]⟩
    exact .cons ⟨dl, _, rfl, hl, nulls⟩ .nil
  · exact beside

/-- Rows side by side in SQL, and the row that they give when they are joined. -/
def Joined (E : Engine V) (s r : Schema) (keys ls rs : List String) (drawn row : List V) : Prop :=
  ∃ left right, Beside E s r ls rs drawn left right ∧ row = s.joinRow E r keys left right

/-- The SELECT of a join yields the rows of the join. -/
theorem selectRows_joined (hasLeft : Has ls s) (hasRight : Has rs r) (distinct : ¬ SameName a b)
    (derived : s.join r keys = .ok t) (kind : JoinKind) {nullSafe : Bool} {condition : Expr}
    (hc : joinCondition s r a b nullSafe keys = .ok condition) {items : List SelectItem}
    (hi : t.columns.mapM (joinItem s a b) = .ok items) (plain : hasAggregate items = false)
    {drawnLeft lefts drawnRight rights : List (List V)}
    (hl : List.Forall₂ (StandsFor E s ls) drawnLeft lefts)
    (hr : List.Forall₂ (StandsFor E r rs) drawnRight rights) :
    ∃ drawn, drawnLeft.mapM
        (joinedRows E [(a, ls), (b, rs)] kind condition rs.length drawnRight) = some drawn ∧
      selectRows E [(a, ls), (b, rs)] items none [] [] drawn.flatten =
        some (lefts.flatMap fun left =>
          (s.partners E r keys kind nullSafe rights left).map (s.joinRow E r keys left)) := by
  obtain ⟨drawn, joined, each⟩ : ∃ drawn, drawnLeft.mapM
      (joinedRows E [(a, ls), (b, rs)] kind condition rs.length drawnRight) = some drawn ∧
      List.Forall₂ (List.Forall₂ (Joined E s r keys ls rs)) drawn (lefts.map fun left =>
        (s.partners E r keys kind nullSafe rights left).map (s.joinRow E r keys left)) := by
    induction hl with
    | nil => exact ⟨[], rfl, .nil⟩
    | @cons _ left _ _ first _ ih =>
      obtain ⟨drawn, joined, each⟩ := ih
      obtain ⟨out, ho, related⟩ :=
        joinedRows_related hasLeft hasRight distinct derived kind hc first hr
      refine ⟨out :: drawn, ?_, .cons ?_ each⟩
      · simp only [List.mapM_cons, ho, joined]
        rfl
      · rw [List.forall₂_map_right_iff]
        exact related.imp fun d right hd => ⟨left, right, hd, rfl⟩
  refine ⟨drawn, joined, ?_⟩
  rw [List.flatMap_def]
  refine (selectRows_plain plain (List.rel_flatten each) fun c row => ?_).trans
    (congrArg some (List.map_id _))
  rintro ⟨left, right, beside, rfl⟩
  exact meanings_joinItems hasLeft hasRight distinct beside derived hi

end

end Sql

end Crosstab
