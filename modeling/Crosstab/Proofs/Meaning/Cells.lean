import Mathlib.Data.List.GetD
import Crosstab.Proofs.Meaning.Rows
import Crosstab.Proofs.Rules

namespace Crosstab

variable {V : Type} (E : Engine V)

theorem Engine.cell_congr {names : List String} {row : List V} {a b : String} (h : SameName a b) :
    E.cell names row a = E.cell names row b := by
  have same : (fun n => decide (SameName n a)) = fun n => decide (SameName n b) := by
    funext n
    exact decide_eq_decide.2 (sameName_congr h)
  unfold Engine.cell
  rw [same]

theorem Engine.cell_nulls (names : List String) (n : Nat) (name : String) :
    E.cell names (List.replicate n E.null) name = E.null := by
  unfold Engine.cell
  split
  · rw [List.getD_eq_getElem?_getD]
    exact List.getElem?_getD_replicate_default_eq ..
  · rfl

theorem Expr.values_eq_map (s : Schema) (number : List SortKey → V) (row : List V)
    (es : List Expr) : Expr.values E s number row es = es.map (Expr.value E s number row) := by
  induction es with
  | nil => rfl
  | cons e es ih => rw [Expr.values, ih, List.map_cons]

namespace Schema

variable {s r t : Schema}

theorem cell_found {name : String} {c : Column} {row : List V} (h : s.find? name = some c) :
    E.cell s.ids row name = E.cell s.ids row c.id :=
  E.cell_congr (find?_eq_some_iff.1 h).2.symm

/-- A column's id finds the position of the column. -/
theorem findIdx?_ids {i : Nat} (h : i < s.columns.length) :
    s.ids.findIdx? (fun n => decide (SameName n s.columns[i].id)) = some i := by
  have len : s.ids.length = s.columns.length := List.length_map ..
  rw [List.findIdx?_eq_some_iff_getElem]
  refine ⟨len ▸ h, by simp [ids, SameName.refl], ?_⟩
  intro j hj
  have bound : j < s.columns.length := by omega
  simp only [ids, List.getElem_map, decide_eq_true_eq]
  intro same
  have twice := eq_of_sameName (List.getElem_mem bound) (List.getElem_mem h) same
  have nodup : s.columns.Nodup := s.ids_distinct.of_map
  have := (nodup.getElem_inj_iff).1 twice
  omega

theorem cell_getElem {i : Nat} (h : i < s.columns.length) (row : List V) :
    E.cell s.ids row s.columns[i].id = row.getD i E.null := by
  simp only [Engine.cell, findIdx?_ids h]

/-- A row is the list of its values, column by column. -/
theorem map_cell {row : List V} (wide : row.length = s.columns.length) :
    s.columns.map (fun c => E.cell s.ids row c.id) = row := by
  apply List.ext_getElem (by simpa using wide.symm)
  intro i hi hr
  have bound : i < s.columns.length := by simpa using hi
  rw [List.getElem_map, cell_getElem E bound, List.getD_eq_getElem _ _ hr]

/-- The value of a column in a row that is made column by column. -/
theorem cell_map {c : Column} (f : Column → V) (h : c ∈ s.columns) :
    E.cell s.ids (s.columns.map f) c.id = f c := by
  obtain ⟨i, hi, rfl⟩ := List.getElem_of_mem h
  rw [cell_getElem E hi, List.getD_eq_getElem _ _ (by simpa using hi), List.getElem_map]

/-- A column of a join shows the value of the side it is on. -/
theorem map_joinRow {keys : List String} (derived : s.join r keys = .ok t) (left right : List V) :
    (t.columns.map fun c =>
        if s.has c.id then E.cell s.ids left c.id else E.cell r.ids right c.id) =
      s.joinRow E r keys left right := by
  obtain ⟨-, columns, each, ht⟩ := join_eq_ok_iff.1 derived
  have hasLeft {c : Column} (h : c ∈ s.columns) : s.has c.id = true := has_of_mem h
  rw [ht, List.map_append, List.map_append, joinRow]
  congr 1
  · congr 1
    · refine (map_eq_map_of_forall₂ each fun key c hk => ?_).symm
      have found := (keyColumn_eq_ok_iff.1 hk).1
      rw [if_pos (hasLeft (find?_eq_some_iff.1 found).1), cell_found E found]
    · refine List.map_congr_left fun c hc => ?_
      rw [if_pos (hasLeft (mem_without.1 hc).1)]
  · refine List.map_congr_left fun c hc => ?_
    rw [not_has_of_mem_without derived hc]
    rfl

end Schema

/-! ## Widths -/

theorem mem_of_mem_pick {α : Type} {xs : List α} {positions : List Nat} {a : α}
    (h : a ∈ pick xs positions) : a ∈ xs := by
  obtain ⟨i, -, hi⟩ := List.mem_filterMap.1 h
  exact List.mem_of_getElem? hi

theorem Schema.length_join {s r t : Schema} {keys : List String} (h : s.join r keys = .ok t) :
    t.columns.length = keys.length + (s.without keys).length + (r.without keys).length := by
  obtain ⟨-, columns, each, ht⟩ := join_eq_ok_iff.1 h
  rw [ht, List.length_append, List.length_append, each.length_eq]

theorem Plan.rows_wide (db : Tables V) {s : Schema} (p : Plan s) :
    ∀ row ∈ p.rows E db, row.length = s.columns.length := by
  induction p with
  | table name s _ =>
    intro row h
    unfold Plan.rows at h
    split at h
    · obtain ⟨stored, -, rfl⟩ := List.mem_map.1 h
      exact List.length_map ..
    · cases h
  | project source columns derived _ =>
    intro row h
    obtain ⟨old, -, rfl⟩ := List.mem_map.1 h
    rw [List.length_map]
    exact (Schema.project_eq_ok_iff.1 derived).2.length_eq
  | filter source predicate _ ih =>
    intro row h
    exact ih row (List.mem_filter.1 h).1
  | groupBy source columns aggregates derived _ =>
    intro row h
    obtain ⟨members, -, rfl⟩ := List.mem_map.1 h
    obtain ⟨-, groups, rest, ht, hg, hr⟩ := Schema.groupBy_eq_ok_iff.1 derived
    rw [Schema.groupRow, ht, List.length_append, List.length_append, List.length_map,
      List.length_map, hg.length_eq, hr.length_eq]
  | sort source keys _ ih =>
    intro row h
    exact ih row (mem_of_mem_pick h)
  | extend source column type value derived ih =>
    intro row h
    obtain ⟨i, hi, rfl⟩ := List.mem_mapIdx.1 h
    obtain ⟨-, actual, -, -, ht⟩ := Schema.extend_eq_ok_iff.1 derived
    rw [Schema.extendRow, ht, List.length_append, List.length_append,
      ih _ (List.getElem_mem hi)]
    rfl
  | @mapColumns s t source mapping derived ih =>
    intro row h
    have len := congrArg List.length (Schema.types_of_mapColumns derived)
    rw [List.length_map, List.length_map] at len
    rw [len]
    exact ih row h
  | @mapColumnsAt s t source mapping derived ih =>
    intro row h
    have len := congrArg List.length (Schema.types_of_mapColumnsAt derived)
    rw [List.length_map, List.length_map] at len
    rw [len]
    exact ih row h
  | @concat s r t left right derived ihl ihr =>
    intro row h
    obtain ⟨same, each⟩ := Schema.concat_eq_ok_iff.1 derived
    have len := each.length_eq
    rw [List.length_zip, same, Nat.min_self] at len
    rw [← len]
    obtain h | h := List.mem_append.1 h
    · rw [ihl row h, same]
    · exact ihr row h
  | join left right keys kind nullSafe derived _ _ =>
    intro row h
    obtain ⟨l, -, h⟩ := List.mem_flatMap.1 h
    obtain ⟨r, -, rfl⟩ := List.mem_map.1 h
    rw [Schema.length_join derived, Schema.joinRow]
    simp only [List.length_append, List.length_map]

end Crosstab
