import Crosstab.Proofs.Pivot.Parts

/-!
# Parts put together

Parts of a tree can be concatenated in any number, and the result is again such a part. So the rows
of all open nodes can be shown in one query.
-/

namespace Crosstab

namespace DataType

theorem widen_self (a : DataType) : a.widen a = some a := if_pos rfl

theorem widen_comm (a b : DataType) : a.widen b = b.widen a := by
  cases a <;> cases b <;> rfl

theorem eq_or_eq_of_widen {a b c : DataType} (h : a.widen b = some c) : c = a ∨ c = b := by
  cases a <;> cases b <;> cases h <;> simp

theorem widen_isSome_iff {a b : DataType} :
    (a.widen b).isSome = true ↔ a = b ∨ (a.isNumeric = true ∧ b.isNumeric = true) := by
  cases a <;> cases b <;> decide

end DataType

theorem concatColumn_self (c : Column) : Schema.concatColumn c c = .ok c :=
  Schema.concatColumn_eq_ok_iff.2 ⟨SameName.refl _, c.type, DataType.widen_self _, rfl⟩

theorem forall₂_concatColumn_self (columns : List Column) :
    List.Forall₂ (fun pair c => Schema.concatColumn pair.1 pair.2 = .ok c) (columns.zip columns)
      columns := by
  induction columns with
  | nil => exact .nil
  | cons c columns ih => exact .cons (concatColumn_self c) ih

namespace PivotTree

variable {t : PivotTree}

section
variable (sound : t.Sound)
include sound

/-- Types that parts may have for one column have a common type, and that is allowed too. -/
theorem Allows.widen {b : Column} {x y : DataType} (hx : t.Allows b x) (hy : t.Allows b y) :
    ∃ z, x.widen y = some z ∧ t.Allows b z := by
  obtain ⟨a, ha, column, output, ho, hx⟩ := hx
  obtain ⟨a', ha', column', output', ho', hy⟩ := hy
  have nodup : (t.aggregates.map (·.column)).Nodup :=
    sound.map_column_aggregates ▸ t.base.schema.nodup_ids
  have one : a' = a := List.inj_on_of_nodup_map nodup ha' ha (column'.trans column.symm)
  rw [one, ho] at ho'
  have same : output' = output := (Except.ok.inj ho').symm
  rw [same] at hy
  have allowed (z : DataType) (h : z = output ∨ z = b.type ∧ (output.widen b.type).isSome = true) :
      t.Allows b z := ⟨a, ha, column, output, ho, h⟩
  obtain hx | ⟨hx, fits⟩ := hx
  · obtain hy | ⟨hy, fits⟩ := hy
    · rw [hx, hy]
      exact ⟨output, DataType.widen_self _, allowed _ (.inl rfl)⟩
    · obtain ⟨z, hz⟩ := Option.isSome_iff_exists.1 fits
      rw [hx, hy]
      exact ⟨z, hz, allowed z ((DataType.eq_or_eq_of_widen hz).imp_right fun eq => ⟨eq, fits⟩)⟩
  · obtain hy | ⟨hy, -⟩ := hy
    · obtain ⟨z, hz⟩ := Option.isSome_iff_exists.1 fits
      rw [hx, hy, DataType.widen_comm]
      exact ⟨z, hz, allowed z ((DataType.eq_or_eq_of_widen hz).imp_right fun eq => ⟨eq, fits⟩)⟩
    · rw [hx, hy]
      exact ⟨b.type, DataType.widen_self _, allowed _ (.inr ⟨rfl, fits⟩)⟩

theorem exists_shown {columns left right : List Column}
    (hl : List.Forall₂ (fun b c => c.id = b.id ∧ t.Allows b c.type) columns left)
    (hr : List.Forall₂ (fun b c => c.id = b.id ∧ t.Allows b c.type) columns right) :
    ∃ shown, List.Forall₂ (fun pair c => Schema.concatColumn pair.1 pair.2 = .ok c)
        (left.zip right) shown ∧
      List.Forall₂ (fun b c => c.id = b.id ∧ t.Allows b c.type) columns shown := by
  induction hl generalizing right with
  | nil =>
    cases hr
    exact ⟨[], .nil, .nil⟩
  | @cons b c columns left first _ ih =>
    obtain ⟨_, _⟩ | @⟨_, d, _, right, second, others⟩ := hr
    obtain ⟨shown, pairs, each⟩ := ih others
    obtain ⟨type, common, allowed⟩ := Allows.widen sound first.2 second.2
    have same : SameName c.id d.id := congrArg foldCase (first.1.trans second.1.symm)
    refine ⟨{ c with type } :: shown, ?_, .cons ⟨first.1, allowed⟩ each⟩
    exact .cons (Schema.concatColumn_eq_ok_iff.2 ⟨same, type, common, rfl⟩) pairs

/-- Two parts can be put together. -/
theorem exists_concat {q r : Query} (hq : t.Fits q.schema) (hr : t.Fits r.schema) :
    ∃ u, q.concat r = .ok u ∧ t.Fits u.schema := by
  obtain ⟨left, hl, leftFits⟩ := hq.columns
  obtain ⟨right, hr, rightFits⟩ := hr.columns
  obtain ⟨shown, pairs, each⟩ := exists_shown sound leftFits rightFits
  have len : left.length = right.length := leftFits.length_eq.symm.trans rightFits.length_eq
  have sides : q.schema.columns.length = r.schema.columns.length := by
    rw [hl, hr, List.length_append, List.length_append, len]
  obtain ⟨u, hu, columns⟩ := Query.exists_concat r (shown ++ t.bookkeeping) sides (by
    rw [hl, hr, List.zip_append len]
    exact List.rel_append pairs (forall₂_concatColumn_self _))
  exact ⟨u, hu, ⟨shown, columns, each⟩⟩

theorem exists_concatPairs {parts : List Query} (h : ∀ q ∈ parts, t.Fits q.schema) :
    ∃ merged, concatPairs parts = .ok merged ∧ ∀ q ∈ merged, t.Fits q.schema := by
  induction parts using concatPairs.induct with
  | case1 a b rest ih =>
    obtain ⟨fitsA, fitsRest⟩ := List.forall_mem_cons.1 h
    obtain ⟨fitsB, fitsRest⟩ := List.forall_mem_cons.1 fitsRest
    obtain ⟨first, hf, fits⟩ := exists_concat sound fitsA fitsB
    obtain ⟨others, ho, all⟩ := ih fitsRest
    refine ⟨first :: others, ?_, List.forall_mem_cons.2 ⟨fits, all⟩⟩
    rw [concatPairs, hf, ho]
    rfl
  | case2 parts single =>
    refine ⟨parts, ?_, h⟩
    unfold concatPairs
    split
    · next a b rest => exact absurd rfl (single a b rest)
    · rfl

/-- Any number of parts can be put together. -/
theorem exists_concatAll {parts : List Query} (nonempty : parts ≠ [])
    (h : ∀ q ∈ parts, t.Fits q.schema) :
    ∃ q, concatAll parts = .ok q ∧ t.Fits q.schema := by
  induction parts using concatAll.induct with
  | case1 => exact absurd rfl nonempty
  | case2 q => exact ⟨q, by rw [concatAll], h q (List.mem_singleton.2 rfl)⟩
  | case3 a b rest merged hm ih =>
    obtain ⟨others, ho, fits⟩ := exists_concatPairs sound h
    have same : others = merged := Except.ok.inj (ho.symm.trans hm)
    have len := length_of_concatPairs hm
    obtain ⟨q, hq, all⟩ := ih (by rintro rfl; simp at len; omega) (same ▸ fits)
    refine ⟨q, ?_, all⟩
    rw [concatAll]
    split
    · next other ho => rwa [← Except.ok.inj (hm.symm.trans ho)]
    · next e he => rw [hm] at he; cases he
  | case4 a b rest e he =>
    obtain ⟨others, ho, -⟩ := exists_concatPairs sound h
    rw [he] at ho
    cases ho

end

section
variable {P : Query → Prop} (closed : ∀ q other r, P q → P other → q.concat other = .ok r → P r)
include closed

theorem concatPairs_closed {parts merged : List Query} (h : concatPairs parts = .ok merged)
    (all : ∀ q ∈ parts, P q) : ∀ q ∈ merged, P q := by
  induction parts using concatPairs.induct generalizing merged with
  | case1 a b rest ih =>
    obtain ⟨first, hf, h⟩ := bind_eq_ok_iff.1 h
    obtain ⟨others, ho, h⟩ := bind_eq_ok_iff.1 h
    obtain ⟨ofA, all⟩ := List.forall_mem_cons.1 all
    obtain ⟨ofB, all⟩ := List.forall_mem_cons.1 all
    rw [← pure_eq_ok_iff.1 h]
    exact List.forall_mem_cons.2 ⟨closed a b first ofA ofB hf, ih ho all⟩
  | case2 parts single =>
    unfold concatPairs at h
    split at h
    · next a b rest => exact absurd rfl (single a b rest)
    · cases h
      exact all

/-- What two parts pass on to their rows together, any number of parts do. -/
theorem concatAll_closed {parts : List Query} {q : Query} (h : concatAll parts = .ok q)
    (all : ∀ q ∈ parts, P q) : P q := by
  induction parts using concatAll.induct with
  | case1 => simp [concatAll] at h
  | case2 p =>
    rw [concatAll] at h
    cases h
    exact all q (List.mem_singleton.2 rfl)
  | case3 a b rest merged hm ih =>
    rw [concatAll] at h
    split at h
    · next other ho =>
      have eq : other = merged := Except.ok.inj (ho.symm.trans hm)
      exact ih (eq ▸ h) (concatPairs_closed closed hm all)
    · cases h
  | case4 a b rest e he =>
    rw [concatAll] at h
    split at h
    · next other ho => rw [he] at ho; cases ho
    · cases h

end

section
variable {α : Type} {f : Query → List α}
  (joined : ∀ q other r, q.concat other = .ok r → f r = f q ++ f other)
include joined

theorem concatPairs_flatMap {parts merged : List Query} (h : concatPairs parts = .ok merged) :
    merged.flatMap f = parts.flatMap f := by
  induction parts using concatPairs.induct generalizing merged with
  | case1 a b rest ih =>
    obtain ⟨first, hf, h⟩ := bind_eq_ok_iff.1 h
    obtain ⟨others, ho, h⟩ := bind_eq_ok_iff.1 h
    rw [← pure_eq_ok_iff.1 h]
    simp only [List.flatMap_cons, joined a b first hf, ih ho, List.append_assoc]
  | case2 parts single =>
    unfold concatPairs at h
    split at h
    · next a b rest => exact absurd rfl (single a b rest)
    · cases h
      rfl

/-- What two parts have one after the other, any number of parts have so. -/
theorem concatAll_flatMap {parts : List Query} {q : Query} (h : concatAll parts = .ok q) :
    f q = parts.flatMap f := by
  induction parts using concatAll.induct with
  | case1 => simp [concatAll] at h
  | case2 p =>
    rw [concatAll] at h
    cases h
    simp
  | case3 a b rest merged hm ih =>
    rw [concatAll] at h
    split at h
    · next other ho =>
      have eq : other = merged := Except.ok.inj (ho.symm.trans hm)
      rw [ih (eq ▸ h), concatPairs_flatMap joined hm]
    · cases h
  | case4 a b rest e he =>
    rw [concatAll] at h
    split at h
    · next other ho => rw [he] at ho; cases ho
    · cases h

end

theorem length_le_of_mem_paths {depth : Nat} {f : Forest} {path : List PathKey}
    (h : path ∈ f.paths depth) : path.length ≤ depth := by
  induction f generalizing depth path with
  | leaf => simp [Forest.paths] at h
  | node key below beside ihBelow ihBeside =>
    cases depth with
    | zero => simp [Forest.paths] at h
    | succ depth =>
      rw [Forest.paths, List.mem_cons, List.mem_append, List.mem_map] at h
      obtain rfl | ⟨inner, hi, rfl⟩ | h := h
      · simp
      · exact Nat.succ_le_succ (ihBelow hi)
      · exact ihBeside h

/-- The tree shows children of nodes only. -/
theorem length_le_of_mem_expandedPaths {openPaths : OpenPaths} {expandRoot : Bool}
    {path : List PathKey} (h : path ∈ t.expandedPaths openPaths expandRoot) :
    path.length ≤ t.depth := by
  unfold expandedPaths at h
  split at h
  · obtain rfl | h := List.mem_cons.1 h
    · exact Nat.zero_le _
    · exact length_le_of_mem_paths h
  · cases h

section
variable (sound : t.Sound)
include sound

section
variable (free : ∀ c ∈ t.base.schema.columns, t.Free c.id)
include free

/-- The root is shown if the layout says so. -/
theorem exists_rootPart : ∃ root, t.rootPart = .ok root ∧ (∀ q ∈ root, t.Fits q.schema) ∧
    (t.spec.showRoot = true → root ≠ []) := by
  unfold rootPart
  by_cases visible : t.spec.showRoot = true
  · obtain ⟨q, hq, fits⟩ := exists_rootQuery_of_free sound free
    rw [if_pos visible]
    exact ⟨[q], map_eq_ok_iff.2 ⟨q, hq, rfl⟩, by simpa using fits, by simp⟩
  · rw [if_neg visible]
    exact ⟨[], rfl, by simp, fun yes => absurd yes visible⟩

/-- The rows of all open nodes can be shown together. -/
theorem exists_treeQuery_of_free (openPaths : OpenPaths) (expandRoot : Bool) :
    ∃ q, t.treeQuery openPaths expandRoot = .ok q ∧ t.Fits q.schema := by
  obtain ⟨root, hroot, rootFits, shown⟩ := exists_rootPart sound free
  obtain ⟨parts, each⟩ := exists_forall₂ fun path
    (hp : path ∈ t.expandedPaths openPaths expandRoot) => exists_pathQuery_of_free sound free
      (path.map PathKey.toScalar) (by simpa using length_le_of_mem_expandedPaths hp)
  have nonempty : root ++ parts ≠ [] := by
    intro none
    obtain ⟨noRoot, noParts⟩ := List.append_eq_nil_iff.1 none
    have hidden : t.spec.showRoot = false := by
      rw [← Bool.not_eq_true]
      exact fun yes => shown yes noRoot
    have len := each.length_eq
    rw [noParts, expandedPaths, hidden] at len
    simp [OpenPaths.shown] at len
  obtain ⟨q, hq, fits⟩ := exists_concatAll sound nonempty
    (List.forall_mem_append.2 ⟨rootFits, fun r hr => by
      obtain ⟨path, -, hpath⟩ := exists_of_mem_right each hr
      exact hpath.2⟩)
  exact ⟨q, treeQuery_eq_ok_iff.2 ⟨root, parts, hroot, each.imp fun path r hr => hr.1, hq⟩, fits⟩

end

theorem exists_treeQuery (apart : ∀ c ∈ t.base.schema.columns, Apart c.id) (openPaths : OpenPaths)
    (expandRoot : Bool) :
    ∃ q, t.treeQuery openPaths expandRoot = .ok q ∧ t.Fits q.schema :=
  exists_treeQuery_of_free sound (fun c hc => free_of_apart (apart c hc)) openPaths expandRoot

end

end PivotTree

end Crosstab
