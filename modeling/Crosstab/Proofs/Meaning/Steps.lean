import Crosstab.Proofs.Meaning.Cells
import Crosstab.Proofs.Meaning.Groups
import Crosstab.Proofs.Query.Builders

namespace Crosstab

variable {V : Type}

theorem forall₂_mapIdx {α β : Type} {R : α → β → Prop} {f : Nat → α → β} {l : List α}
    (h : ∀ i (bound : i < l.length), R l[i] (f i l[i])) : List.Forall₂ R l (l.mapIdx f) := by
  refine List.forall₂_iff_get.2 ⟨by simp, fun i hi hj => ?_⟩
  simpa using h i hi

section
variable (E : Engine V) (s r t : Schema)

/-- A row over one schema has the values of a row over another in all columns of that one. -/
def Schema.Keeps (row next : List V) : Prop :=
  ∀ name, s.has name = true → E.cell t.ids next name = E.cell s.ids row name

end

namespace Schema

section
variable {E : Engine V} {s r t : Schema}

theorem Keeps.refl (E : Engine V) (s : Schema) (row : List V) : s.Keeps E s row row :=
  fun _ _ => rfl

theorem Keeps.trans {a b c : List V} (sub : ∀ name, s.has name = true → r.has name = true)
    (h : s.Keeps E r a b) (h' : r.Keeps E t b c) : s.Keeps E t a c :=
  fun name has => (h' name (sub name has)).trans (h name has)

/-- The first columns of a schema show the first values of a row. -/
theorem cell_append_left {left right : List Column} (columns : s.columns = left ++ right)
    (f : Column → V) (rest : List V) {c : Column} (h : c ∈ left) :
    E.cell s.ids (left.map f ++ rest) c.id = f c := by
  obtain ⟨i, hi, rfl⟩ := List.getElem_of_mem h
  have bound : i < s.columns.length := by
    rw [columns, List.length_append]
    omega
  have eq : s.columns[i] = left[i] := by
    simp only [columns]
    exact List.getElem_append_left hi
  have value : i < (left.map f ++ rest).length := by
    rw [List.length_append, List.length_map]
    omega
  rw [← eq, cell_getElem E bound, List.getD_eq_getElem _ _ value, eq,
    List.getElem_append_left (by simpa using hi), List.getElem_map]

/-- The other columns of a schema show the other values of a row. -/
theorem cell_append_right {left right : List Column} (columns : s.columns = left ++ right)
    {first others : List V} (len : first.length = left.length) {i : Nat} (h : i < right.length) :
    E.cell s.ids (first ++ others) right[i].id = others.getD i E.null := by
  have bound : left.length + i < s.columns.length := by
    rw [columns, List.length_append]
    omega
  have eq : s.columns[left.length + i] = right[i] := by simp [columns]
  rw [← eq, cell_getElem E bound, ← len, List.getD_append_right _ _ _ _ (Nat.le_add_right ..),
    Nat.add_sub_cancel_left]

end

end Schema

namespace Query

section
variable {E : Engine V} {db : Tables V} {q r : Query}

/-! ## One more column -/

section
variable {column : String} {type : DataType} {value : Expr}
  (h : q.extend column type value = .ok r)
include h

theorem rows_extend : r.rows E db =
    (q.rows E db).mapIdx (q.schema.extendRow E type value (q.rows E db)) := by
  obtain ⟨t, derived, rfl⟩ := extend_eq_ok_iff.1 h
  rfl

theorem keeps_extend {row : List V} (wide : row.length = q.schema.columns.length) (v : V) :
    q.schema.Keeps E r.schema row (row ++ [v]) := by
  intro name has
  obtain ⟨c, hc, same⟩ := Schema.has_iff.1 has
  rw [← E.cell_congr same, ← E.cell_congr same]
  conv_lhs => rw [← Schema.map_cell E wide]
  exact Schema.cell_append_left (columns_extend h) _ _ hc

theorem cell_extend {row : List V} (wide : row.length = q.schema.columns.length) (v : V) :
    E.cell r.schema.ids (row ++ [v]) column = v := by
  have columns := columns_extend h
  have bound : q.schema.columns.length < r.schema.columns.length := by simp [columns]
  have last : r.schema.columns[q.schema.columns.length] = Column.named column type := by
    simp [columns]
  have cell := Schema.cell_getElem E bound (row ++ [v])
  rw [last, ← wide] at cell
  simpa [Column.named] using cell

/-- Every row gets one more value, and keeps those that it has. -/
theorem forall₂_extend : List.Forall₂ (fun row next => q.schema.Keeps E r.schema row next ∧
      (value.type q.schema = .ok type → ∃ number,
        E.cell r.schema.ids next column = value.value E q.schema number row))
    (q.rows E db) (r.rows E db) := by
  rw [rows_extend h]
  refine forall₂_mapIdx fun i bound => ?_
  have wide := q.plan.rows_wide E db _ (List.getElem_mem bound)
  refine ⟨keeps_extend h wide _, fun typed => ⟨q.schema.number E (q.rows E db) i, ?_⟩⟩
  rw [Schema.extendRow, cell_extend h wide, typed]
  exact if_pos rfl

end

/-! ## Some columns, and other rows of the same columns -/

section
variable {columns : List String} (h : q.project columns = .ok r)
include h

theorem rows_project :
    r.rows E db = (q.rows E db).map fun row => columns.map (E.cell q.schema.ids row) := by
  obtain ⟨t, derived, rfl⟩ := project_eq_ok_iff.1 h
  rfl

theorem found_project :
    List.Forall₂ (fun name c => q.schema.find? name = some c) columns r.schema.columns := by
  obtain ⟨t, derived, rfl⟩ := project_eq_ok_iff.1 h
  exact (Schema.project_eq_ok_iff.1 derived).2

theorem has_project {name : String} (mem : name ∈ columns) : r.schema.has name = true := by
  obtain ⟨c, hc, found⟩ := exists_of_mem_left (found_project h) mem
  exact Schema.has_iff.2 ⟨c, hc, (Schema.find?_eq_some_iff.1 found).2⟩

/-- The columns that are left show what they have shown. -/
theorem keeps_project (row : List V) :
    r.schema.Keeps E q.schema (columns.map (E.cell q.schema.ids row)) row := by
  intro name has
  obtain ⟨c, hc, same⟩ := Schema.has_iff.1 has
  have values : columns.map (E.cell q.schema.ids row) =
      r.schema.columns.map fun c => E.cell q.schema.ids row c.id :=
    map_eq_map_of_forall₂ (found_project h) fun _ _ found => Schema.cell_found E found
  rw [values, ← E.cell_congr same, ← E.cell_congr same, Schema.cell_map E _ hc]

end

theorem filter_rows (E : Engine V) (db : Tables V) {predicate : Expr}
    (h : q.filter predicate = .ok r) :
    r.schema = q.schema ∧ ∀ row ∈ r.rows E db, row ∈ q.rows E db := by
  obtain ⟨checked, rfl⟩ := filter_eq_ok_iff.1 h
  exact ⟨rfl, fun row hr => (List.mem_filter.1 hr).1⟩

theorem sort_rows (E : Engine V) (db : Tables V) {keys : List SortKey} (h : q.sort keys = .ok r) :
    r.schema = q.schema ∧ (r.rows E db).Perm (q.rows E db) := by
  obtain ⟨checked, rfl⟩ := sort_eq_ok_iff.1 h
  refine ⟨rfl, pick_perm ?_⟩
  have arranged := E.arrange_perm ((q.rows E db).map (q.schema.sortValues E keys))
  rwa [List.length_map] at arranged

theorem concat_rows (E : Engine V) (db : Tables V) {other : Query} (h : q.concat other = .ok r) :
    r.schema.ids = q.schema.ids ∧ r.rows E db = q.rows E db ++ other.rows E db := by
  obtain ⟨t, derived, rfl⟩ := concat_eq_ok_iff.1 h
  obtain ⟨len, each⟩ := Schema.concat_eq_ok_iff.1 derived
  exact ⟨Schema.ids_concatColumns len each, rfl⟩

/-! ## Groups -/

section
variable {columns : List String} {aggregates : List AggregateColumn}
  (h : q.groupBy columns aggregates = .ok r)
include h

theorem rows_groupBy : r.rows E db =
    (q.schema.groups E columns (q.rows E db)).map (q.schema.groupRow E columns aggregates) := by
  obtain ⟨t, derived, rfl⟩ := groupBy_eq_ok_iff.1 h
  rfl

/-- The row of a group shows what its first row has in the columns of the groups. -/
theorem cell_groupRow (members : List (List V)) {name : String} (mem : name ∈ columns) :
    E.cell r.schema.ids (q.schema.groupRow E columns aggregates members) name =
      E.cell q.schema.ids (members.headD []) name := by
  obtain ⟨t, derived, rfl⟩ := groupBy_eq_ok_iff.1 h
  obtain ⟨-, groups, rest, all, found, -⟩ := Schema.groupBy_eq_ok_iff.1 derived
  obtain ⟨c, hc, hname⟩ := exists_of_mem_left found mem
  have same := (Schema.find?_eq_some_iff.1 hname).2
  have values : columns.map (E.cell q.schema.ids (members.headD [])) =
      groups.map fun c => E.cell q.schema.ids (members.headD []) c.id :=
    map_eq_map_of_forall₂ found fun _ _ hc => Schema.cell_found E hc
  rw [Schema.groupRow, values, ← E.cell_congr same, ← E.cell_congr same]
  exact Schema.cell_append_left all _ _ hc

/-- The row of a group shows the aggregates. -/
theorem cell_groupRow_aggregate (members : List (List V)) {a : AggregateColumn}
    (mem : a ∈ aggregates) :
    E.cell r.schema.ids (q.schema.groupRow E columns aggregates members) a.column =
      a.func.apply E (members.map fun row => E.cell q.schema.ids row a.column) := by
  obtain ⟨t, derived, rfl⟩ := groupBy_eq_ok_iff.1 h
  obtain ⟨-, groups, rest, all, found, each⟩ := Schema.groupBy_eq_ok_iff.1 derived
  obtain ⟨i, hi, rfl⟩ := List.getElem_of_mem mem
  have bound : i < rest.length := each.length_eq ▸ hi
  obtain ⟨input, type, hinput, -, column⟩ := Schema.aggregated_eq_ok_iff.1 (each.get hi bound)
  have column : rest[i] = { input with type } := column
  have same : SameName rest[i].id aggregates[i].column := by
    rw [column]
    exact (Schema.find?_eq_some_iff.1 hinput).2
  have len : (columns.map (E.cell q.schema.ids (members.headD []))).length = groups.length := by
    rw [List.length_map]
    exact found.length_eq
  rw [Schema.groupRow, ← E.cell_congr same]
  refine (Schema.cell_append_right all len bound).trans ?_
  rw [List.getD_eq_getElem _ _ (by simpa using hi), List.getElem_map]

end

/-! ## Pairs of rows -/

theorem forall₂_flatMap {α β : Type} {R : α → β → Prop} {f : α → List β} {l : List α}
    (h : ∀ a ∈ l, ∃ b, f a = [b] ∧ R a b) : List.Forall₂ R l (l.flatMap f) := by
  induction l with
  | nil => exact .nil
  | cons a l ih =>
    obtain ⟨first, others⟩ := List.forall_mem_cons.1 h
    obtain ⟨b, hb, hr⟩ := first
    rw [List.flatMap_cons, hb]
    exact .cons hr (ih others)

/-- A row that agrees with at most one row of the right side has one partner. -/
theorem exists_partner {s r : Schema} {keys : List String} {nullSafe : Bool}
    {rights : List (List V)} {row : List V}
    (unique : rights.Pairwise fun a b =>
      ¬ (s.agree E r keys nullSafe row a = true ∧ s.agree E r keys nullSafe row b = true)) :
    ∃ p, s.partners E r keys .left nullSafe rights row = [p] ∧
      (p ∈ rights ∧ s.agree E r keys nullSafe row p = true ∨
        p = List.replicate r.columns.length E.null ∧
          ∀ a ∈ rights, s.agree E r keys nullSafe row a = false) := by
  unfold Schema.partners
  have agrees : ∀ a ∈ rights.filter (s.agree E r keys nullSafe row),
      a ∈ rights ∧ s.agree E r keys nullSafe row a = true := fun a ha => List.mem_filter.1 ha
  have pairs := unique.filter (s.agree E r keys nullSafe row)
  cases found : rights.filter (s.agree E r keys nullSafe row) with
  | nil =>
    refine ⟨_, if_pos ⟨rfl, rfl⟩, .inr ⟨rfl, fun a ha => ?_⟩⟩
    rw [← Bool.not_eq_true]
    exact List.filter_eq_nil_iff.1 found a ha
  | cons p others =>
    rw [found] at agrees pairs
    cases others with
    | nil => exact ⟨p, if_neg (by simp), .inl (agrees p (by simp))⟩
    | cons p' _ =>
      have both := (List.pairwise_cons.1 pairs).1 p' (by simp)
      exact absurd ⟨(agrees p (by simp)).2, (agrees p' (by simp)).2⟩ both

section
variable {other : Query} {keys : List String} {kind : JoinKind} {nullSafe : Bool}
  (h : q.join other keys kind nullSafe = .ok r)
include h

theorem has_join {name : String} (has : q.schema.has name = true) : r.schema.has name = true := by
  obtain ⟨t, derived, rfl⟩ := join_eq_ok_iff.1 h
  exact Schema.has_of_subset (fun c hc => Schema.mem_join_of_left derived hc) name has

theorem mem_join {c : Column} (hc : c ∈ other.schema.without keys) : c ∈ r.schema.columns := by
  obtain ⟨t, derived, rfl⟩ := join_eq_ok_iff.1 h
  obtain ⟨-, columns, -, all⟩ := Schema.join_eq_ok_iff.1 derived
  show c ∈ t.columns
  rw [all]
  exact List.mem_append_right _ hc

theorem cell_joinRow (row right : List V) :
    q.schema.Keeps E r.schema row (q.schema.joinRow E other.schema keys row right) ∧
      ∀ c ∈ other.schema.without keys,
        E.cell r.schema.ids (q.schema.joinRow E other.schema keys row right) c.id =
          E.cell other.schema.ids right c.id := by
  have right_mem (c : Column) (hc : c ∈ other.schema.without keys) := mem_join h hc
  obtain ⟨t, derived, rfl⟩ := join_eq_ok_iff.1 h
  rw [← Schema.map_joinRow E derived]
  constructor
  · intro name has
    obtain ⟨c, hc, same⟩ := Schema.has_iff.1 has
    rw [← E.cell_congr same, ← E.cell_congr same,
      Schema.cell_map E _ (Schema.mem_join_of_left derived hc), if_pos (Schema.has_of_mem hc)]
  · intro c hc
    rw [Schema.cell_map E _ (right_mem c hc), Schema.not_has_of_mem_without derived hc]
    rfl

end

/-- In a left join where every row agrees with at most one row of the right side, every row gets the
other values of that row, or nulls if there is none. -/
theorem forall₂_join {other : Query} {keys : List String} {nullSafe : Bool}
    (h : q.join other keys .left nullSafe = .ok r)
    (unique : ∀ row ∈ q.rows E db, (other.rows E db).Pairwise fun a b =>
      ¬ (q.schema.agree E other.schema keys nullSafe row a = true ∧
        q.schema.agree E other.schema keys nullSafe row b = true)) :
    List.Forall₂ (fun row next => q.schema.Keeps E r.schema row next ∧
        ((∃ right ∈ other.rows E db, q.schema.agree E other.schema keys nullSafe row right = true ∧
            ∀ c ∈ other.schema.without keys,
              E.cell r.schema.ids next c.id = E.cell other.schema.ids right c.id) ∨
          ((∀ right ∈ other.rows E db,
              q.schema.agree E other.schema keys nullSafe row right = false) ∧
            ∀ c ∈ other.schema.without keys, E.cell r.schema.ids next c.id = E.null)))
      (q.rows E db) (r.rows E db) := by
  have rows : r.rows E db = (q.rows E db).flatMap fun row =>
      (q.schema.partners E other.schema keys .left nullSafe (other.rows E db) row).map
        (q.schema.joinRow E other.schema keys row) := by
    obtain ⟨t, derived, rfl⟩ := join_eq_ok_iff.1 h
    rfl
  rw [rows]
  refine forall₂_flatMap fun row hrow => ?_
  obtain ⟨p, only, cases⟩ := exists_partner (unique row hrow)
  obtain ⟨keeps, cells⟩ := cell_joinRow (E := E) h row p
  refine ⟨_, by rw [only]; rfl, keeps, cases.imp ?_ ?_⟩
  · rintro ⟨mem, agree⟩
    exact ⟨p, mem, agree, cells⟩
  · rintro ⟨rfl, none⟩
    exact ⟨none, fun c hc => by rw [cells c hc, E.cell_nulls]⟩

end

end Query

end Crosstab
