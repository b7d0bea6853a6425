import Crosstab.Proofs.Pivot.Stages
import Crosstab.Proofs.Query.Typing

namespace Crosstab

theorem DataType.castsTo_self (type : DataType) : type.castsTo type = true := by
  cases type <;> rfl

theorem Schema.has_append {s t : Schema} {extra : List Column} {name : String}
    (columns : t.columns = s.columns ++ extra) (old : s.has name = false)
    (new : ∀ c ∈ extra, ¬ SameName c.id name) : t.has name = false := by
  rw [Schema.has_eq_false_iff, columns]
  exact List.forall_mem_append.2 ⟨Schema.has_eq_false_iff.1 old, new⟩

namespace PivotTree

variable {t : PivotTree}

def bookkeeping (t : PivotTree) : List Column :=
  [.named depthColumn .integer, .named labelColumn .text, .named rootColumn .boolean] ++
    t.levels.map fun level => .named (pathColumn level.1) level.2.type

/-- A type that a part may have for a base column: the type of its aggregate or, where that fits,
the type of the column itself. -/
def Allows (t : PivotTree) (b : Column) (type : DataType) : Prop :=
  ∃ a ∈ t.aggregates, a.column = b.id ∧ ∃ output, a.func.outputType b.type = .ok output ∧
    (type = output ∨ type = b.type ∧ (output.widen b.type).isSome = true)

/-- A schema has the columns of the tree: base columns of allowed types, then bookkeeping. -/
structure Fits (t : PivotTree) (s : Schema) : Prop where
  columns : ∃ shown, s.columns = shown ++ t.bookkeeping ∧
    List.Forall₂ (fun b c => c.id = b.id ∧ t.Allows b c.type) t.base.schema.columns shown

theorem ids_bookkeeping (t : PivotTree) : t.bookkeeping.map (·.id) =
    [depthColumn, labelColumn, rootColumn] ++ (List.range t.depth).map pathColumn := by
  rw [← map_fst_levels, bookkeeping, List.map_append, List.map_map, List.map_map]
  rfl

theorem Fits.ids {s : Schema} (h : t.Fits s) : s.ids = t.outputColumns := by
  obtain ⟨shown, columns, each⟩ := h.columns
  have ids : t.base.schema.columns.map (·.id) = shown.map (·.id) :=
    map_eq_map_of_forall₂ each fun b c hc => hc.1.symm
  rw [Schema.ids, columns, List.map_append, ids_bookkeeping, ← ids, outputColumns, Schema.ids,
    List.append_assoc]

theorem nodup_pathIds (depth : Nat) : ((List.range depth).map pathColumn).Nodup := by
  refine List.nodup_range.map fun m n same => ?_
  exact sameName_pathColumn.1 (same ▸ SameName.refl _)

theorem nodup_outputColumns (free : ∀ c ∈ t.base.schema.columns, t.Free c.id) :
    t.outputColumns.Nodup := by
  rw [outputColumns, List.append_assoc]
  refine List.nodup_append.2 ⟨t.base.schema.nodup_ids,
    List.nodup_append.2 ⟨by decide, nodup_pathIds _, ?_⟩, ?_⟩
  · rintro a ha b hb rfl
    obtain ⟨n, -, rfl⟩ := List.mem_map.1 hb
    exact (not_sameName_numbered (List.mem_cons_of_mem _ ha) n).1 (SameName.refl _)
  · rintro a ha b hb rfl
    obtain ⟨c, hc, rfl⟩ := List.mem_map.1 ha
    have name := free c hc
    simp only [List.cons_append, List.nil_append, List.mem_cons, List.mem_map] at hb
    obtain h | h | h | ⟨n, hn, h⟩ := hb
    · exact name.depth (h ▸ SameName.refl _)
    · exact name.label (h ▸ SameName.refl _)
    · exact name.root (h ▸ SameName.refl _)
    · exact name.path n (List.mem_range.1 hn) (h ▸ SameName.refl _)

/-! ## Path columns -/

theorem exists_pathColumns {q : Query} (known : Nat) (levels : List (Nat × Column))
    (new : ∀ l ∈ levels, q.schema.has (pathColumn l.1) = false)
    (distinct : (levels.map (·.1)).Nodup)
    (typed : ∀ l ∈ levels, l.1 < known → ∃ c ∈ q.schema.columns, c.id = l.2.id ∧
      c.type = l.2.type) :
    ∃ r, levels.foldlM (addPathColumn known) q = .ok r ∧ r.schema.columns =
      q.schema.columns ++ levels.map fun l => .named (pathColumn l.1) l.2.type := by
  induction levels generalizing q with
  | nil => exact ⟨q, rfl, by simp⟩
  | cons level levels ih =>
    obtain ⟨number, pivot⟩ := level
    obtain ⟨newHere, newBelow⟩ := List.forall_mem_cons.1 new
    obtain ⟨typedHere, typedBelow⟩ := List.forall_mem_cons.1 typed
    obtain ⟨fresh, distinct⟩ := List.nodup_cons.1 distinct
    have value : (if number < known then Expr.column pivot.id else .null pivot.type).type q.schema =
        .ok pivot.type := by
      by_cases deep : number < known
      · obtain ⟨c, hc, id, type⟩ := typedHere deep
        rw [if_pos deep, Expr.type_column (Schema.find?_of_mem hc (id ▸ SameName.refl _)), type]
      · rw [if_neg deep, Expr.type_null]
    obtain ⟨r, hr, columns⟩ := Query.exists_extend (pathColumn number) pivot.type _ newHere
      (pathColumn_ne_empty number)
      value (DataType.castsTo_self _)
    obtain ⟨last, hl, all⟩ := ih (q := r)
      (fun l hl => Schema.has_append columns (newBelow l hl) (by
        rintro c hc same
        rw [List.mem_singleton.1 hc] at same
        have eq : number = l.1 := sameName_pathColumn.1 same
        exact fresh (List.mem_map.2 ⟨l, hl, eq.symm⟩)))
      distinct fun l hl deep => by
        obtain ⟨c, hc, rest⟩ := typedBelow l hl deep
        exact ⟨c, columns ▸ List.mem_append_left _ hc, rest⟩
    refine ⟨last, ?_, by rw [all, columns, List.append_assoc]; rfl⟩
    rw [List.foldlM_cons]
    exact bind_eq_ok_iff.2 ⟨r, hr, hl⟩

/-! ## The last step -/

/-- The columns of a query are those of the base query, with types that a part may have; those of
the first pivots are the pivot columns themselves. -/
structure Ready (t : PivotTree) (s : Schema) (known : Nat) : Prop where
  ids : ∀ c ∈ s.columns, c.id ∈ t.base.schema.ids
  shown : ∀ b ∈ t.base.schema.columns, ∃ c ∈ s.columns, c.id = b.id ∧ t.Allows b c.type
  raw : ∀ l ∈ t.levels, l.1 < known → l.2 ∈ s.columns

theorem Ready.names {s : Schema} {known : Nat} (ready : t.Ready s known) {P : String → Prop}
    (base : ∀ b ∈ t.base.schema.columns, P b.id) : ∀ c ∈ s.columns, P c.id := by
  intro c hc
  obtain ⟨b, hb, same⟩ := List.mem_map.1 (ready.ids c hc)
  exact same ▸ base b hb

/-- The columns for depth, label and root can be added where no name is in the way. -/
theorem exists_marks {q : Query} (depth : Nat) (label : Expr) (isRoot : Bool)
    (names : ∀ c ∈ q.schema.columns, t.Free c.id)
    (typed : ∀ s : Schema, (∀ c ∈ q.schema.columns, c ∈ s.columns) →
      ∃ type, label.type s = .ok type) :
    ∃ q₁ q₂ q₃, q.extend depthColumn .integer (.lit (.int (Int64.ofNat depth))) = .ok q₁ ∧
      q₁.extend labelColumn .text label = .ok q₂ ∧
      q₂.extend rootColumn .boolean (.lit (.bool isRoot)) = .ok q₃ ∧
      q₃.schema.columns = q.schema.columns ++
        [.named depthColumn .integer, .named labelColumn .text, .named rootColumn .boolean] := by
  have depthNew := Schema.has_eq_false_iff.2 fun c hc => (names c hc).depth
  have labelNew := Schema.has_eq_false_iff.2 fun c hc => (names c hc).label
  have rootNew := Schema.has_eq_false_iff.2 fun c hc => (names c hc).root
  obtain ⟨q₁, h₁, c₁⟩ := Query.exists_extend depthColumn .integer
    (.lit (.int (Int64.ofNat depth))) depthNew (by decide) rfl rfl
  obtain ⟨type, hlabel⟩ := typed q₁.schema fun c hc => c₁ ▸ List.mem_append_left _ hc
  obtain ⟨q₂, h₂, c₂⟩ := Query.exists_extend labelColumn .text label
    (Schema.has_append c₁ labelNew (by decide)) (by decide) hlabel (by cases type <;> rfl)
  obtain ⟨q₃, h₃, c₃⟩ := Query.exists_extend rootColumn .boolean (.lit (.bool isRoot))
    (Schema.has_append c₂ (Schema.has_append c₁ rootNew (by decide)) (by decide)) (by decide) rfl
    rfl
  refine ⟨q₁, q₂, q₃, h₁, h₂, h₃, ?_⟩
  rw [c₃, c₂, c₁]
  simp

/-- The bookkeeping columns can be added to such a query, and give it the columns of the tree. -/
theorem exists_finish (free : ∀ c ∈ t.base.schema.columns, t.Free c.id) {q : Query} {known : Nat}
    (depth : Nat) (label : Expr) (isRoot : Bool) (ready : t.Ready q.schema known)
    (typed : ∀ s : Schema, (∀ c ∈ q.schema.columns, c ∈ s.columns) →
      ∃ type, label.type s = .ok type) :
    ∃ r, t.finish q depth label isRoot known = .ok r ∧ t.Fits r.schema := by
  have names := ready.names free
  obtain ⟨q₁, q₂, q₃, h₁, h₂, h₃, columns₃⟩ :=
    exists_marks depth label isRoot names typed
  have keep₃ : ∀ c ∈ q.schema.columns, c ∈ q₃.schema.columns := fun c hc =>
    columns₃ ▸ List.mem_append_left _ hc
  obtain ⟨q₄, h₄, c₄⟩ := exists_pathColumns (q := q₃) known t.levels
    (by
      intro l hl
      refine Schema.has_append columns₃
        (Schema.has_eq_false_iff.2 fun c hc => (names c hc).path l.1 (lt_of_mem_levels hl)) ?_
      intro c hc
      refine (not_sameName_numbered (List.mem_cons_of_mem _ ?_) l.1).1
      exact List.mem_map_of_mem (f := Column.id) hc)
    (by rw [map_fst_levels]; exact List.nodup_range)
    (fun l hl deep => ⟨l.2, keep₃ l.2 (ready.raw l hl deep), rfl, rfl⟩)
  have columns₄ : q₄.schema.columns = q.schema.columns ++ t.bookkeeping := by
    rw [c₄, columns₃, List.append_assoc]
    rfl
  -- The base columns are picked by name, as grouping has put the pivots in front.
  obtain ⟨shown, each⟩ := exists_forall₂ ready.shown
  have fits : List.Forall₂ (fun b c => c.id = b.id ∧ t.Allows b c.type) t.base.schema.columns
      shown :=
    each.imp fun b c hc => hc.2
  have ids : (shown ++ t.bookkeeping).map (·.id) = t.outputColumns := by
    rw [List.map_append, ids_bookkeeping,
      ← map_eq_map_of_forall₂ each fun b c hc => (hc.2.1).symm]
    rw [outputColumns, Schema.ids, List.append_assoc]
  obtain ⟨r, h₅, c₅⟩ := Query.exists_project (q := q₄) (shown ++ t.bookkeeping)
    (by simp [bookkeeping])
    (by
      rw [columns₄]
      refine List.forall_mem_append.2 ⟨fun c hc => ?_, fun c hc => List.mem_append_right _ hc⟩
      obtain ⟨b, -, mem, -⟩ := exists_of_mem_right each hc
      exact List.mem_append_left _ mem)
    (List.Nodup.of_map _ (ids ▸ nodup_outputColumns free))
  refine ⟨r, ?_, ⟨shown, c₅, fits⟩⟩
  rw [ids] at h₅
  exact finish_eq_ok_iff.2 ⟨q₁, q₂, q₃, q₄, h₁, h₂, h₃, h₄, h₅⟩

/-! ## Groups and base rows -/

section
variable (sound : t.Sound)
include sound

theorem Sound.mem_take {p : Column} {count : Nat} (h : p ∈ t.pivots.take count) :
    p ∈ t.base.schema.columns := sound.pivots_mem p (List.mem_of_mem_take h)

theorem Sound.allows_raw {b : Column} (hb : b ∈ t.base.schema.columns)
    (mixed : t.spec.showLeafRows = true ∨ b ∈ t.pivots) : t.Allows b b.type := by
  obtain ⟨a, ha, of⟩ := exists_of_mem_left sound.aggregates hb
  obtain ⟨output, ho, fits⟩ := of.typed
  exact ⟨a, ha, of.column, output, ho, .inr ⟨rfl, fits mixed⟩⟩

/-- Base rows are ready if they may be shown. -/
theorem Sound.ready_base (shown : t.spec.showLeafRows = true) (known : Nat) :
    t.Ready t.base.schema known where
  ids _ hc := List.mem_map_of_mem hc
  shown b hb := ⟨b, hb, rfl, sound.allows_raw hb (.inl shown)⟩
  raw l hl _ := sound.pivots_mem l.2 (List.mem_of_getElem? (mem_levels.1 hl))

/-- The column that an aggregate of the tree yields. -/
theorem Sound.exists_aggregated {a : AggregateColumn} (ha : a ∈ t.aggregates) :
    ∃ c, t.base.schema.aggregated a = .ok c := by
  obtain ⟨b, hb, of⟩ := exists_of_mem_right sound.aggregates ha
  obtain ⟨output, ho, -⟩ := of.typed
  exact ⟨_, Schema.aggregated_eq_ok_iff.2
    ⟨b, output, of.column ▸ Schema.find?_self hb, ho, rfl⟩⟩

theorem Sound.aggregated {a : AggregateColumn} (ha : a ∈ t.aggregates) {c : Column}
    (h : t.base.schema.aggregated a = .ok c) :
    c.id = a.column ∧ ∃ b ∈ t.base.schema.columns, a.column = b.id ∧ t.Allows b c.type := by
  obtain ⟨b, hb, of⟩ := exists_of_mem_right sound.aggregates ha
  obtain ⟨input, type, hi, ho, rfl⟩ := Schema.aggregated_eq_ok_iff.1 h
  have eq : input = b := by
    rw [of.column, Schema.find?_self hb] at hi
    exact (Option.some.inj hi).symm
  rw [eq] at ho ⊢
  exact ⟨of.column.symm, b, hb, of.column, a, ha, of.column, type, ho, .inl rfl⟩

theorem Sound.map_column_aggregates :
    t.aggregates.map (·.column) = t.base.schema.ids :=
  (map_eq_map_of_forall₂ sound.aggregates fun _ _ of => of.column.symm).symm

/-- The ids of the columns of grouped rows are those of the base query in another order. -/
theorem Sound.nodup_groupIds (count : Nat) :
    (t.pivotIds.take count ++ (t.folded count).map (·.column)).Nodup := by
  have pivots : t.pivotIds.Nodup := by
    refine sound.pivots_distinct.map_on fun c hc d hd same => ?_
    exact Schema.eq_of_sameName (sound.pivots_mem c hc) (sound.pivots_mem d hd)
      (congrArg foldCase same)
  have columns : (t.aggregates.map (·.column)).Nodup :=
    sound.map_column_aggregates ▸ t.base.schema.nodup_ids
  refine List.nodup_append.2 ⟨pivots.sublist (List.take_sublist ..),
    columns.sublist (List.filter_sublist.map _), ?_⟩
  rintro id hid _ hrest rfl
  obtain ⟨a, ha, rfl⟩ := List.mem_map.1 hrest
  exact (mem_folded.1 ha).2 hid

section
variable {count : Nat} {rest : List Column}
  (each : List.Forall₂ (fun a c => t.base.schema.aggregated a = .ok c) (t.folded count) rest)
include each

theorem Sound.ids_groups : (t.pivots.take count ++ rest).map (·.id) =
    t.pivotIds.take count ++ (t.folded count).map (·.column) := by
  rw [List.map_append, List.map_take, pivotIds, List.append_cancel_left_eq]
  exact (map_eq_map_of_forall₂ (forall₂_mem each) fun a c hc =>
    (sound.aggregated (mem_folded.1 hc.1).1 hc.2).1.symm).symm

theorem Sound.mem_groups : ∀ c ∈ t.pivots.take count ++ rest, c.id ∈ t.base.schema.ids := by
  refine List.forall_mem_append.2 ⟨fun c hc => List.mem_map_of_mem (sound.mem_take hc), ?_⟩
  intro c hc
  obtain ⟨a, ha, eq⟩ := exists_of_mem_right each hc
  obtain ⟨id, b, hb, of, -⟩ := sound.aggregated (mem_folded.1 ha).1 eq
  rw [id, of]
  exact List.mem_map_of_mem hb

/-- Rows grouped by the first pivots are ready to show these. -/
theorem Sound.ready_groups {u : Schema} (columns : u.columns = t.pivots.take count ++ rest) :
    t.Ready u count where
  ids := columns ▸ sound.mem_groups each
  shown b hb := by
    by_cases group : b ∈ t.pivots.take count
    · exact ⟨b, columns ▸ List.mem_append_left _ group, rfl,
        sound.allows_raw hb (.inr (List.mem_of_mem_take group))⟩
    · obtain ⟨a, ha, of⟩ := exists_of_mem_left sound.aggregates hb
      have mem : a ∈ t.folded count := by
        refine mem_folded.2 ⟨ha, fun hid => group ?_⟩
        obtain ⟨l, hl, below, id⟩ := mem_take_pivotIds.1 (of.column ▸ hid)
        have mem := mem_take_pivots.2 ⟨l, hl, below, rfl⟩
        rwa [← Schema.eq_of_sameName (sound.mem_take mem) hb (congrArg foldCase id)]
      obtain ⟨c, hc, eq⟩ := exists_of_mem_left each mem
      obtain ⟨id, d, hd, column, allowed⟩ := sound.aggregated ha eq
      have eq : d = b :=
        Schema.eq_of_sameName hd hb (congrArg foldCase (column.symm.trans of.column))
      exact ⟨c, columns ▸ List.mem_append_right _ hc, id.trans of.column, eq ▸ allowed⟩
  raw l hl below := columns ▸ List.mem_append_left _ (mem_take_pivots.2 ⟨l, hl, below, rfl⟩)

end

/-- Base rows can be grouped by the first pivots. -/
theorem exists_groupRows {q : Query} (same : q.schema = t.base.schema) (count : Nat) :
    ∃ r, t.groupRows q count = .ok r ∧ t.Ready r.schema count := by
  obtain ⟨rest, each⟩ : ∃ rest, List.Forall₂ (fun a c => t.base.schema.aggregated a = .ok c)
      (t.folded count) rest :=
    exists_forall₂ fun a ha => sound.exists_aggregated (mem_folded.1 ha).1
  obtain ⟨u, columns⟩ := Schema.exists_columns (sound.mem_groups each)
    (sound.ids_groups each ▸ sound.nodup_groupIds count)
  have derived : q.schema.groupBy (t.pivotIds.take count) (t.folded count) = .ok u := by
    refine Schema.groupBy_eq_ok_iff.2 ⟨?_, t.pivots.take count, rest, columns, ?_, same ▸ each⟩
    · rintro ⟨noGroups, noRest⟩
      obtain ⟨a, ha, -⟩ := exists_of_mem_left sound.aggregates sound.record
      have mem : a ∈ t.folded count := mem_folded.2 ⟨ha, by simp [noGroups]⟩
      rw [noRest] at mem
      cases mem
    · rw [take_pivotIds, List.forall₂_map_left_iff, List.forall₂_same, same]
      exact fun p hp => Schema.find?_self (sound.mem_take hp)
  exact ⟨_, Query.groupBy_eq_ok_iff.2 ⟨u, derived, rfl⟩, sound.ready_groups each columns⟩

end

/-! ## Rows at a path -/

/-- The condition on a pivot column can be checked on rows that have the column. -/
theorem exists_pathCondition {s : Schema} {pivot : Column} (h : pivot ∈ s.columns)
    (value : Scalar) : ∃ e, pathCondition pivot value = .ok e ∧ e.type s = .ok .boolean ∧
      e.hasRowNumber = false := by
  have column : (Expr.column pivot.id).type s = .ok pivot.type :=
    Expr.type_column (Schema.find?_self h)
  unfold pathCondition
  split
  · exact ⟨_, rfl, Expr.type_combine_eq_ok_iff.2 ⟨[pivot.type], .cons column .nil, rfl⟩, rfl⟩
  · next v _ hv =>
    have constant := checkConstant_of_coerce hv
    refine ⟨.combine .eq [.column pivot.id, .const v pivot.type], ?_, ?_, rfl⟩
    · rw [Expr.typedLit, constant]
      rfl
    · refine Expr.type_combine_eq_ok_iff.2 ⟨[pivot.type, pivot.type], ?_, ?_⟩
      · exact .cons column (.cons (Expr.type_const constant) .nil)
      · cases pivot.type <;> rfl
  · exact ⟨_, rfl, rfl, rfl⟩

section
variable (sound : t.Sound)
include sound

/-- The base rows below a node can be found by any path that is not too long. -/
theorem exists_filterPath (path : List Scalar) (short : path.length ≤ t.depth) :
    ∃ r, t.filterPath path = .ok r ∧ r.schema = t.base.schema := by
  unfold filterPath
  split
  · exact ⟨t.base, rfl, rfl⟩
  · next nonempty =>
    obtain ⟨conditions, each⟩ := exists_forall₂
      (fun l (hl : l ∈ t.pivots.zip path) => exists_pathCondition
        (sound.pivots_mem l.1 (List.of_mem_zip hl).1) l.2)
    have good : ∀ e ∈ conditions, e.type t.base.schema = .ok .boolean ∧ e.hasRowNumber = false := by
      intro e he
      obtain ⟨l, -, -, typed, unranked⟩ := exists_of_mem_right each he
      exact ⟨typed, unranked⟩
    have some : conditions ≠ [] := by
      rintro rfl
      have len := each.length_eq
      have pos : 0 < path.length := List.length_pos_iff.2 nonempty
      rw [List.length_zip, List.length_nil] at len
      unfold depth at short
      omega
    obtain ⟨r, hr, same⟩ := Query.exists_filter (q := t.base) (.combine .and conditions)
      (Expr.anyRowNumber_eq_false_iff.2 fun e he => (good e he).2)
      (Expr.type_and some fun e he => (good e he).1)
    refine ⟨r, bind_eq_ok_iff.2 ⟨conditions, mapError_eq_ok_iff.2 (mapM_eq_ok_iff.2 ?_), hr⟩, same⟩
    exact each.imp fun l e he => he.1

theorem type_leafLabel {s : Schema} (has : ∀ b ∈ t.base.schema.columns, b ∈ s.columns) :
    ∃ type, t.leafLabel.type s = .ok type := by
  unfold leafLabel
  split
  · next name h =>
    obtain ⟨c, hc, same⟩ := Schema.has_iff.1 (sound.leaf name h)
    exact ⟨c.type, Expr.type_column (Schema.find?_of_mem (has c hc) same)⟩
  · exact ⟨.text, Expr.type_null s .text⟩

/-- The children of a node can be found by any path that is not too long: above the deepest groups
they are groups again, below them base rows or nothing. -/
theorem exists_pathQuery_of_free (free : ∀ c ∈ t.base.schema.columns, t.Free c.id)
    (path : List Scalar) (short : path.length ≤ t.depth) :
    ∃ q, t.pathQuery path = .ok q ∧ t.Fits q.schema := by
  obtain ⟨rows, hrows, same⟩ := exists_filterPath sound path short
  suffices children : ∃ q, t.Children path rows q ∧ t.Fits q.schema by
    obtain ⟨q, hq, fits⟩ := children
    exact ⟨q, pathQuery_eq_ok_iff.2 ⟨short, rows, hrows, hq⟩, fits⟩
  cases next : t.pivots[path.length]? with
  | some pivot =>
    obtain ⟨groups, hg, ready⟩ := exists_groupRows sound same (path.length + 1)
    have mem : pivot ∈ groups.schema.columns :=
      ready.raw (path.length, pivot) (mem_levels.2 next) (Nat.lt_succ_self _)
    obtain ⟨q, hq, fits⟩ := exists_finish free (path.length + 1) (.column pivot.id) false ready
      fun s keep => ⟨pivot.type, Expr.type_column (Schema.find?_self (keep pivot mem))⟩
    exact ⟨q, .groups next hg hq, fits⟩
  | none =>
    by_cases shown : t.spec.showLeafRows = true
    · have ready : t.Ready rows.schema t.depth := same ▸ sound.ready_base shown t.depth
      obtain ⟨q, hq, fits⟩ := exists_finish free (t.depth + 1) t.leafLabel false ready
        fun s keep => type_leafLabel sound (same ▸ keep)
      exact ⟨q, .leaves next shown hq, fits⟩
    · obtain ⟨groups, hg, ready⟩ := exists_groupRows sound same t.depth
      obtain ⟨none, hn, kept⟩ := Query.exists_filter (q := groups) (.lit (.bool false)) rfl rfl
      have ready : t.Ready none.schema t.depth := kept ▸ ready
      obtain ⟨q, hq, fits⟩ := exists_finish free (t.depth + 1) (.null .text) false ready
        fun s _ => ⟨.text, Expr.type_null s .text⟩
      exact ⟨q, .hidden next (Bool.eq_false_iff.2 shown) hg hn hq, fits⟩

theorem exists_rootQuery_of_free (free : ∀ c ∈ t.base.schema.columns, t.Free c.id) :
    ∃ q, t.rootQuery = .ok q ∧ t.Fits q.schema := by
  obtain ⟨groups, hg, ready⟩ := exists_groupRows sound rfl 0
  obtain ⟨q, hq, fits⟩ := exists_finish free 0 (.null .text) true ready
    fun s _ => ⟨.text, Expr.type_null s .text⟩
  exact ⟨q, rootQuery_eq_ok_iff.2 ⟨groups, hg, hq⟩, fits⟩

variable (apart : ∀ c ∈ t.base.schema.columns, Apart c.id)
include apart

theorem exists_rootQuery : ∃ q, t.rootQuery = .ok q ∧ t.Fits q.schema :=
  exists_rootQuery_of_free sound fun c hc => free_of_apart (apart c hc)

theorem exists_pathQuery (path : List Scalar) (short : path.length ≤ t.depth) :
    ∃ q, t.pathQuery path = .ok q ∧ t.Fits q.schema :=
  exists_pathQuery_of_free sound (fun c hc => free_of_apart (apart c hc)) path short

end

end PivotTree

end Crosstab
