import Crosstab.Proofs.Double.Literal
import Crosstab.Proofs.Meaning.Exact
import Crosstab.Proofs.Pivot.Matching
import Crosstab.Proofs.Pivot.Ranks
import Crosstab.Proofs.Sql.Spelling

/-!
# When the queries of a tree have SQL

Over a base query that has SQL, the root and the ranks of the nodes have SQL too. The children of a
node have SQL unless the path looks for a real that is not finite: texts such as `inf` are read as
such a real, and SQL has no literal for it. One such path among the open ones leaves the whole tree
without SQL.
-/

namespace Crosstab

open Query (Spells)
open Scalar (unwritable unwritable_append mem_unwritable)

/-! ## Texts without NUL -/

theorem nul_not_mem_of_numeric {cs : List Char} (h : cs.all isNumeric = true) : '\x00' ∉ cs := by
  intro nul
  cases List.all_eq_true.1 h _ nul

theorem nul_not_mem_numbered {stem : String} (h : '\x00' ∉ stem.toList) (n : Nat) :
    '\x00' ∉ (stem ++ toString n).toList := by
  have digits := nul_not_mem_of_numeric (all_isNumeric_toDigits n)
  simpa [h] using digits

theorem RealLayout.nul_not_mem_write (layout : RealLayout) (v : Double) :
    '\x00' ∉ (layout.write v).toList := by
  by_cases finite : v.isFinite = true
  · exact nul_not_mem_of_numeric (Double.all_isNumeric_write layout finite)
  · cases v with
    | nan => exact (by decide : '\x00' ∉ "NaN".toList)
    | infinity negative =>
      cases negative with
      | false => exact (by decide : '\x00' ∉ "inf".toList)
      | true => exact (by decide : '\x00' ∉ "-inf".toList)
    | finite => exact absurd rfl finite

namespace Scalar

theorem nul_not_mem_displayReal (v : Double) : '\x00' ∉ (displayReal v).toList := by
  unfold displayReal
  split
  · split <;> exact RealLayout.nul_not_mem_write _ v
  · exact RealLayout.nul_not_mem_write _ v

/-- A text that a value becomes has no NUL unless it was that text before. -/
theorem nul_not_mem_of_coerce {value : Scalar} {type : DataType} {s : String}
    (h : value.coerce type = .ok (text s)) (clean : ∀ s, value = .text s → '\x00' ∉ s.toList) :
    '\x00' ∉ s.toList := by
  cases type with
  | text =>
    cases value with
    | null => cases h
    | text s =>
      cases h
      exact clean s rfl
    | bool b => cases h; cases b <;> decide
    | int i =>
      cases h
      exact nul_not_mem_of_numeric (all_isNumeric_toString _)
    | real v =>
      cases h
      exact nul_not_mem_displayReal v
  | _ =>
    have typed := type_of_coerce h
    cases typed.resolve_left nofun

end Scalar

namespace PivotTree

variable {t : PivotTree} {q r : Query} {values : List Scalar}

/-! ## Parts -/

/-- What a path column holds adds nothing that SQL cannot hold. -/
theorem spells_addPathColumn {known : Nat} {l : Nat × Column} (h : q.Spells values)
    (made : addPathColumn known q l = .ok r) : r.Spells values := by
  obtain ⟨level, pivot⟩ := l
  refine h.extend made (nul_not_mem_numbered (by decide) level) ?_
  split <;> rfl

theorem spells_finish {depth known : Nat} {label : Expr} {isRoot : Bool} (h : q.Spells values)
    (labelled : unwritable label.constants = [])
    (made : t.finish q depth label isRoot known = .ok r) : r.Spells values := by
  obtain ⟨q₁, q₂, q₃, q₄, h₁, h₂, h₃, h₄, project⟩ := finish_eq_ok_iff.1 made
  have s₁ := h.extend h₁ (by decide) rfl
  have s₂ := s₁.extend h₂ (by decide) labelled
  have s₃ := s₂.extend h₃ (by decide) rfl
  have s₄ := foldlM_closed (P := (·.Spells values)) h₄ s₃ fun _ _ _ => spells_addPathColumn
  exact s₄.project project

theorem unwritable_leafLabel (t : PivotTree) : unwritable t.leafLabel.constants = [] := by
  unfold leafLabel
  split <;> rfl

/-! ## Paths -/

def sought (t : PivotTree) (path : List Scalar) : List Scalar :=
  (t.pivots.zip path).filterMap fun (pivot, value) => (value.coerce pivot.type).toOption

theorem mem_sought {path : List Scalar} {v : Scalar} :
    v ∈ t.sought path ↔ ∃ l ∈ t.pivots.zip path, l.2.coerce l.1.type = .ok v := by
  rw [sought, List.mem_filterMap]
  refine exists_congr fun l => and_congr_right fun _ => ?_
  exact toOption_eq_some_iff

theorem constants_pathCondition {pivot : Column} {value : Scalar} {e : Expr}
    (h : pathCondition pivot value = .ok e) :
    unwritable e.constants = unwritable (value.coerce pivot.type).toOption.toList := by
  unfold pathCondition at h
  split at h
  · next null =>
    cases h
    rw [null]
    rfl
  · next v some coerced =>
    obtain ⟨constant, hc, rfl⟩ := map_eq_ok_iff.1 h
    obtain ⟨-, -, rfl⟩ := map_eq_ok_iff.1 hc
    rw [coerced]
    rfl
  · next e bad =>
    cases h
    rw [bad]
    rfl

theorem unwritable_flatMap {α : Type} (l : List α) (f : α → List Scalar) :
    unwritable (l.flatMap f) = l.flatMap fun a => unwritable (f a) := List.filter_flatMap ..

theorem spells_filterPath (h : t.base.Spells []) {path : List Scalar}
    (made : t.filterPath path = .ok r) : r.Spells (unwritable (t.sought path)) := by
  unfold filterPath at made
  split at made
  · next root =>
    cases made
    rwa [sought, root, List.zip_nil_right]
  · obtain ⟨conditions, each, made⟩ := bind_eq_ok_iff.1 made
    have each := mapM_eq_ok_iff.1 (mapError_eq_ok_iff.1 each)
    have constants : unwritable (Expr.combine .and conditions).constants =
        unwritable (t.sought path) := by
      rw [Expr.constants, Expr.constantsOf_eq_flatMap, unwritable_flatMap, sought,
        List.filterMap_eq_flatMap_toList, unwritable_flatMap]
      exact (flatMap_eq_flatMap_of_forall₂ each fun l e he => (constants_pathCondition he).symm).symm
    have filtered := h.filter made
    rwa [constants, List.append_nil] at filtered

/-- What is made of the rows at a path adds nothing that SQL cannot hold. -/
theorem spells_children {path : List Scalar} {rows : Query} (h : rows.Spells values)
    (children : t.Children path rows r) : r.Spells values := by
  cases children with
  | groups next grouped finished => exact spells_finish (h.groupBy grouped) rfl finished
  | leaves last shown finished => exact spells_finish h (unwritable_leafLabel t) finished
  | hidden last hidden grouped emptied finished =>
    exact spells_finish ((h.groupBy grouped).filter emptied) rfl finished

theorem spells_pathQuery (h : t.base.Spells []) {path : List Scalar}
    (made : t.pathQuery path = .ok r) : r.Spells (unwritable (t.sought path)) := by
  obtain ⟨-, rows, filtered, children⟩ := pathQuery_eq_ok_iff.1 made
  exact spells_children (spells_filterPath h filtered) children

/-! ## The tree -/

theorem spells_rootQuery (h : t.base.Spells []) (made : t.rootQuery = .ok r) : r.Spells [] := by
  obtain ⟨groups, grouped, finished⟩ := rootQuery_eq_ok_iff.1 made
  exact spells_finish (h.groupBy grouped) rfl finished

theorem spells_rankQuery (h : t.base.Spells []) {depth : Nat} (made : t.rankQuery depth = .ok r) :
    r.Spells [] := by
  obtain ⟨-, -, groups, ranked, q, grouped, extended, paths, project⟩ := rankQuery_eq_ok_iff.1 made
  have nodes := (h.groupBy grouped).extend extended (nul_not_mem_numbered (by decide) depth) rfl
  have named := foldlM_closed (P := (·.Spells [])) paths nodes fun _ _ _ => spells_addPathColumn
  exact named.project project

theorem spells_addRank (h : t.base.Spells []) {depth : Nat} (tree : q.Spells values)
    (made : t.addRank q depth = .ok r) : r.Spells values := by
  obtain ⟨flagged, ranks, marked, hf, hr, hm, joined⟩ := addRank_eq_ok_iff.1 made
  have level := nul_not_mem_numbered (by decide : '\x00' ∉ "_inLevel_".toList) depth
  have left := tree.extend hf level rfl
  have right := (spells_rankQuery h hr).extend hm level rfl
  rw [← List.append_nil values]
  exact left.join right joined

/-- A concatenation holds what its parts hold. -/
theorem spells_concatAll {parts : List Query} (made : concatAll parts = .ok r)
    (each : ∀ part ∈ parts, part.Spells (unwritable part.plan.constants)) :
    r.Spells (parts.flatMap fun part => unwritable part.plan.constants) := by
  have constants : r.plan.constants = parts.flatMap fun part => part.plan.constants :=
    concatAll_flatMap (fun _ _ _ => Query.Spells.constants_concat) made
  rw [← unwritable_flatMap, ← constants]
  refine concatAll_closed (P := fun q => q.Spells (unwritable q.plan.constants)) ?_ made each
  intro a b c ha hb joined
  rw [Query.Spells.constants_concat joined, unwritable_append]
  exact ha.concat hb joined

def soughtByAll (t : PivotTree) (openPaths : OpenPaths) (expandRoot : Bool) : List Scalar :=
  (t.expandedPaths openPaths expandRoot).flatMap fun path => t.sought (path.map PathKey.toScalar)

theorem spells_treeQuery (h : t.base.Spells []) {openPaths : OpenPaths} {expandRoot : Bool}
    (made : t.treeQuery openPaths expandRoot = .ok r) :
    r.Spells (unwritable (t.soughtByAll openPaths expandRoot)) := by
  obtain ⟨root, parts, hroot, each, all⟩ := treeQuery_eq_ok_iff.1 made
  have rootSpells : ∀ part ∈ root, part.Spells [] := by
    unfold rootPart at hroot
    split at hroot
    · obtain ⟨part, hpart, rfl⟩ := map_eq_ok_iff.1 hroot
      exact List.forall_mem_singleton.2 (spells_rootQuery h hpart)
    · cases hroot
      exact List.forall_mem_nil _
  have partSpells : List.Forall₂ (fun path part => part.Spells
      (unwritable (t.sought (path.map PathKey.toScalar)))) (t.expandedPaths openPaths expandRoot)
      parts := each.imp fun path part hpart => spells_pathQuery h hpart
  have tree := spells_concatAll all ?_
  · have rootFaults : (root.flatMap fun part => unwritable part.plan.constants) = [] :=
      List.flatMap_eq_nil_iff.2 fun part hpart => (rootSpells part hpart).faults
    have partFaults : (parts.flatMap fun part => unwritable part.plan.constants) =
        unwritable (t.soughtByAll openPaths expandRoot) := by
      rw [soughtByAll, unwritable_flatMap]
      exact (flatMap_eq_flatMap_of_forall₂ partSpells fun path part spells => spells.faults.symm).symm
    rwa [List.flatMap_append, rootFaults, partFaults, List.nil_append] at tree
  · refine List.forall_mem_append.2 ⟨fun part hpart => ?_, fun part hpart => ?_⟩
    · have spells := rootSpells part hpart
      rwa [spells.faults]
    · obtain ⟨path, -, spells⟩ := exists_of_mem_right partSpells hpart
      rwa [spells.faults]

theorem spells_sortedTreeQuery (h : t.base.Spells []) {openPaths : OpenPaths} {expandRoot : Bool}
    (made : t.sortedTreeQuery openPaths expandRoot = .ok r) :
    r.Spells (unwritable (t.soughtByAll openPaths expandRoot)) := by
  obtain ⟨tree, ranked, q, ht, hr, project, sorted⟩ := sortedTreeQuery_eq_ok_iff.1 made
  have ranks := foldlM_closed (P := (·.Spells (unwritable (t.soughtByAll openPaths expandRoot)))) hr
    (spells_treeQuery h ht) fun _ _ _ => spells_addRank h
  exact (ranks.project project).sort sorted

theorem spells_base {base : Query} {spec : PivotSpec} (made : make base spec = .ok t)
    (compiles : ∃ text, base.sql = .ok text) : t.base.Spells [] := by
  obtain ⟨text, h⟩ := compiles
  obtain ⟨-, -, -, extended, -⟩ := make_eq_ok made
  exact (Query.spells_of_sql h).extend extended (by decide) rfl

/-! ## Paths without rows -/

section
variable {V : Type} {E : Engine V} {db : Tables V}

theorem rows_finish_eq_nil {depth known : Nat} {label : Expr} {isRoot : Bool}
    (h : t.finish q depth label isRoot known = .ok r) (none : q.rows E db = []) :
    r.rows E db = [] := by
  have keep {a b : Query} {column : String} {type : DataType} {value : Expr}
      (ha : a.rows E db = []) (made : a.extend column type value = .ok b) : b.rows E db = [] := by
    rw [Query.rows_extend made, ha, List.mapIdx_nil]
  obtain ⟨q₁, q₂, q₃, q₄, h₁, h₂, h₃, h₄, project⟩ := finish_eq_ok_iff.1 h
  have marked : q₃.rows E db = [] := keep (keep (keep none h₁) h₂) h₃
  have named := foldlM_closed (P := fun q => q.rows E db = []) h₄ marked fun _ _ _ => keep
  rw [Query.rows_project project, named, List.map_nil]

/-- Where no base row is below a path, the path has no children. -/
theorem rows_pathQuery_eq_nil (comparing : E.Comparing) {path : List Scalar}
    (made : t.pathQuery path = .ok r)
    (none : ∀ row ∈ t.base.rows E db, t.below E path row = false) : r.rows E db = [] := by
  obtain ⟨short, rows, filtered, children⟩ := pathQuery_eq_ok_iff.1 made
  have empty : rows.rows E db = [] := by
    rw [(rows_filterPath comparing db short filtered).2, List.filter_eq_nil_iff]
    exact fun row hrow => by simp [none row hrow]
  cases children with
  | groups next grouped finished =>
    refine rows_finish_eq_nil finished ?_
    have deep : path.length + 1 ≤ t.depth := (List.getElem?_eq_some_iff.1 next).1
    have noGroups : rows.schema.groups E (t.pivotIds.take (path.length + 1)) [] = [] := by
      refine List.eq_nil_iff_forall_not_mem.2 fun members mem => ?_
      cases rows.schema.head_mem_of_mem_groups E
        (take_pivotIds_ne_nil (Nat.succ_pos _) deep) mem
    rw [Query.rows_groupBy grouped, empty, noGroups, List.map_nil]
  | leaves last shown finished => exact rows_finish_eq_nil finished empty
  | hidden last hidden grouped emptied finished =>
    refine rows_finish_eq_nil finished ?_
    obtain ⟨checked, rfl⟩ := Query.filter_eq_ok_iff.1 emptied
    exact List.filter_eq_nil_iff.2 fun _ _ => ne_true_of_eq_false comparing.false_not_true

/-- No row is below a path with a value that cannot be of the pivot column's type. -/
theorem below_eq_false_of_coerce {path : List Scalar} {l : Column × Scalar} {e : TypeError}
    (mem : l ∈ t.pivots.zip path) (bad : l.2.coerce l.1.type = .error e) (row : List V) :
    t.below E path row = false := by
  refine List.all_eq_false.2 ⟨l, mem, ?_⟩
  rw [Engine.meets, bad]
  exact Bool.false_ne_true

end

/-! ## All paths -/

theorem nul_not_mem_sought {path : List Scalar} (clean : ∀ s, .text s ∈ path → '\x00' ∉ s.toList)
    (s : String) (mem : .text s ∈ t.sought path) : '\x00' ∉ s.toList := by
  obtain ⟨l, hl, coerced⟩ := mem_sought.1 mem
  refine Scalar.nul_not_mem_of_coerce coerced fun u hu => ?_
  exact clean u (hu ▸ (List.of_mem_zip hl).2)

/-- The children of a node have SQL exactly if the path to it looks for finite reals only, and the
whole tree exactly if all open paths do. A path that no row has, or that no row can have, has no
children. -/
theorem sql_iff_finite {base : Query} {spec : PivotSpec} (made : make base spec = .ok t)
    (compiles : ∃ text, base.sql = .ok text) :
    (∀ path : List Scalar, (∀ s, .text s ∈ path → '\x00' ∉ s.toList) →
      ∀ q, t.pathQuery path = .ok q →
        ((∃ text, q.sql = .ok text) ↔ ∀ v, .real v ∈ t.sought path → v.isFinite = true) ∧
        (∀ e, q.sql = .error e →
          ∃ v, .real v ∈ t.sought path ∧ v.isFinite = false ∧ e = .notFinite v) ∧
        ∀ {V : Type} (E : Engine V) (db : Tables V), E.Comparing →
          ((∃ l ∈ t.pivots.zip path, ∃ e, l.2.coerce l.1.type = .error e) ∨
            ∀ row ∈ t.base.rows E db, t.below E path row = false) → q.rows E db = []) ∧
    ∀ openPaths expandRoot, (∀ path ∈ t.expandedPaths openPaths expandRoot,
        ∀ s, some s ∈ path → '\x00' ∉ s.toList) →
      ∀ q, t.sortedTreeQuery openPaths expandRoot = .ok q →
        ((∃ text, q.sql = .ok text) ↔
          ∀ v, .real v ∈ t.soughtByAll openPaths expandRoot → v.isFinite = true) ∧
        ∀ e, q.sql = .error e →
          ∃ v, .real v ∈ t.soughtByAll openPaths expandRoot ∧ v.isFinite = false ∧
            e = .notFinite v := by
  have base := spells_base made compiles
  constructor
  · intro path clean q hq
    obtain ⟨compiled, fault⟩ :=
      (spells_pathQuery base hq).sql_iff_reals (nul_not_mem_sought clean)
    refine ⟨compiled, fault, fun E db comparing none => ?_⟩
    refine rows_pathQuery_eq_nil comparing hq fun row hrow => ?_
    obtain ⟨l, hl, e, bad⟩ | none := none
    · exact below_eq_false_of_coerce hl bad row
    · exact none row hrow
  · intro openPaths expandRoot clean q hq
    refine (spells_sortedTreeQuery base hq).sql_iff_reals fun s mem => ?_
    obtain ⟨path, hp, mem⟩ := List.mem_flatMap.1 mem
    refine nul_not_mem_sought (fun u hu => ?_) s mem
    obtain ⟨key, hk, eq⟩ := List.mem_map.1 hu
    cases key with
    | none => cases eq
    | some x =>
      cases eq
      exact clean path hp u hk

def levelReadings : Query where
  schema := ⟨[.named "level" .real], by decide, by decide⟩
  plan := .table "levelReadings" _ (by decide)

def byLevel : PivotSpec := { PivotSpec.default with pivotColumns := ["level"] }

def openLevel : OpenPaths := OpenPaths.empty.openPath [some "2.5"]

/-- A number may be a level, and a text that is no number cannot be one. -/
theorem sql_iff_finite_levelReadings : unbounded.Comparing ∧ ∃ t,
    make levelReadings byLevel = .ok t ∧ (∃ text, levelReadings.sql = .ok text) ∧
      (∃ q, t.pathQuery [.text "2.5"] = .ok q ∧ ∃ text, q.sql = .ok text) ∧
      (∃ q, t.pathQuery [.text "low"] = .ok q ∧ (∃ text, q.sql = .ok text) ∧
        q.rows unbounded unboundedSales = []) ∧
      ∃ q, t.sortedTreeQuery openLevel true = .ok q ∧ ∃ text, q.sql = .ok text := by
  obtain ⟨t, made, compiles, one, pivots, expanded⟩ : ∃ t, make levelReadings byLevel = .ok t ∧
      (∃ text, levelReadings.sql = .ok text) ∧ t.depth = 1 ∧
      t.pivots = [.named "level" .real] ∧ t.expandedPaths openLevel true = [[], [some "2.5"]] :=
    ⟨_, rfl, ⟨_, rfl⟩, rfl, rfl, by decide⟩
  have shown : (make levelReadings byLevel).toOption.map (fun t =>
      (t.sought [.text "low"], (t.sought [.text "2.5"]).all Scalar.writable,
        (t.soughtByAll openLevel true).all Scalar.writable)) = some ([], true, true) := by
    decide +kernel
  rw [made] at shown
  obtain ⟨low, finite, allFinite⟩ := by simpa using Option.some.inj shown
  have sound := sound_of_make made
  have apart := apart_of_make made (by decide +kernel)
  obtain ⟨number, hn, -⟩ := exists_pathQuery sound apart [.text "2.5"] one.ge
  obtain ⟨other, ho, -⟩ := exists_pathQuery sound apart [.text "low"] one.ge
  obtain ⟨tree, part, ht, -⟩ := exists_sortedTreeQuery sound apart openLevel true
  obtain ⟨paths, trees⟩ := sql_iff_finite made compiles
  obtain ⟨numberSql, -, -⟩ := paths _ (by simp) number hn
  obtain ⟨otherSql, -, noRows⟩ := paths _ (by simp) other ho
  obtain ⟨treeSql, -⟩ := trees openLevel true (by simp [expanded]) tree ht
  refine ⟨unbounded_comparing, t, made, compiles, ⟨number, hn, numberSql.2 ?_⟩,
    ⟨other, ho, otherSql.2 ?_, noRows unbounded unboundedSales unbounded_comparing (.inl ?_)⟩,
    tree, ht, treeSql.2 ?_⟩
  · exact fun v mem => finite _ mem
  · exact fun v mem => by simp [low] at mem
  · exact ⟨(.named "level" .real, .text "low"), by simp [pivots], _, rfl⟩
  · exact fun v mem => allFinite _ mem

/-- A text that is read as an infinite real has no SQL, and leaves the tree without SQL when it is
open, although a text that is no real at all has SQL. -/
theorem sql_error_levelReadings : ∃ t, make levelReadings byLevel = .ok t ∧
    (∃ text, levelReadings.sql = .ok text) ∧
    (∃ q, t.pathQuery [.text "inf"] = .ok q ∧ q.sql = .error (.notFinite (.infinity false))) ∧
    (∃ q, t.sortedTreeQuery (OpenPaths.empty.openPath [some "inf"]) true = .ok q ∧
      q.sql = .error (.notFinite (.infinity false))) := by
  have shown : (make levelReadings byLevel).toOption.bind (fun t =>
      (t.pathQuery [.text "inf"]).toOption.bind fun q =>
        (t.sortedTreeQuery (OpenPaths.empty.openPath [some "inf"]) true).toOption.map fun tree =>
          (q.sql, tree.sql)) =
      some (.error (.notFinite (.infinity false)), .error (.notFinite (.infinity false))) := by
    decide +kernel
  obtain ⟨t, made, shown⟩ := Option.bind_eq_some_iff.1 shown
  obtain ⟨q, hq, shown⟩ := Option.bind_eq_some_iff.1 shown
  obtain ⟨tree, ht, faults⟩ := Option.map_eq_some_iff.1 shown
  obtain ⟨pathFault, treeFault⟩ := Prod.mk.inj faults
  exact ⟨t, toOption_eq_some_iff.1 made, ⟨_, rfl⟩, ⟨q, toOption_eq_some_iff.1 hq, pathFault⟩,
    tree, toOption_eq_some_iff.1 ht, treeFault⟩

end PivotTree

end Crosstab
