import Mathlib.Data.Nat.Log
import Crosstab.Proofs.Pivot.Assembly

/-!
# Balanced concatenation

Parts are concatenated round by round: neighbours are put together in pairs, and a last one without
a neighbour goes on to the next round. So every part is there once, in its place, and the number of
rounds bounds the concatenations that a part lies under.
-/

namespace Crosstab

namespace Schema

variable {s r t : Schema}

/-- The columns have the same names, place by place, and their types have a common type. -/
def Joinable (s r : Schema) : Prop :=
  List.Forall₂ (fun c d => SameName c.id d.id ∧ (c.type.widen d.type).isSome = true) s.columns
    r.columns

instance (s r : Schema) : Decidable (s.Joinable r) := decidable_of_iff _ List.forall₂_iff_get.symm

theorem Joinable.symm (h : s.Joinable r) : r.Joinable s := by
  apply List.Forall₂.flip
  apply h.imp
  intro c d both
  exact ⟨both.1.symm, DataType.widen_comm c.type d.type ▸ both.2⟩

theorem Joinable.trans (h : s.Joinable r) (k : r.Joinable t) : s.Joinable t := by
  apply forall₂_comp h k
  intro c d e first second
  refine ⟨first.1.trans second.1, ?_⟩
  have left := DataType.widen_isSome_iff.1 first.2
  have right := DataType.widen_isSome_iff.1 second.2
  rw [DataType.widen_isSome_iff]
  grind

/-- The columns that two lists of columns give in pairs can again be joined with the left ones. -/
theorem exists_joined {left right : List Column}
    (h : List.Forall₂ (fun c d => SameName c.id d.id ∧ (c.type.widen d.type).isSome = true) left
      right) :
    ∃ columns, List.Forall₂ (fun pair c => concatColumn pair.1 pair.2 = .ok c) (left.zip right)
        columns ∧
      List.Forall₂ (fun c d => SameName c.id d.id ∧ (c.type.widen d.type).isSome = true) left
        columns := by
  induction h with
  | nil => exact ⟨[], .nil, .nil⟩
  | @cons c d left right both _ ih =>
    obtain ⟨columns, pairs, joined⟩ := ih
    obtain ⟨same, common⟩ := both
    obtain ⟨type, widened⟩ := Option.isSome_iff_exists.1 common
    have fits : (c.type.widen type).isSome = true := by
      rw [DataType.widen_isSome_iff] at common ⊢
      obtain rfl | rfl := DataType.eq_or_eq_of_widen widened
      · exact .inl rfl
      · exact common
    refine ⟨{ c with type } :: columns, .cons ?_ pairs, .cons ⟨SameName.refl _, fits⟩ joined⟩
    exact concatColumn_eq_ok_iff.2 ⟨same, type, widened, rfl⟩

end Schema

namespace Query

/-- A query that can be joined with another is concatenated with it, and what comes out can be
joined with all that the two can be joined with. -/
theorem exists_concat_of_joinable {q r : Query} (h : q.schema.Joinable r.schema) :
    ∃ u, q.concat r = .ok u ∧ q.schema.Joinable u.schema := by
  obtain ⟨columns, pairs, joined⟩ := Schema.exists_joined h
  obtain ⟨u, made, shown⟩ := exists_concat r columns h.length_eq pairs
  refine ⟨u, made, ?_⟩
  rw [Schema.Joinable, shown]
  exact joined

/-- The parts that a query is concatenated from, from the left to the right, each with the number of
concatenations that it lies under. -/
inductive ConcatOf : Query → List (Query × Nat) → Prop
  | part (q : Query) : ConcatOf q [(q, 0)]
  | concat {a b q : Query} {left right : List (Query × Nat)} (first : ConcatOf a left)
      (second : ConcatOf b right) (joined : a.concat b = .ok q) :
      ConcatOf q ((left ++ right).map fun p => (p.1, p.2 + 1))

end Query

namespace PivotTree

open Query (ConcatOf)

variable {s : Schema} {depth : Nat} {queries parts : List Query}

/-- The queries of a round and all parts: each query is concatenated from those parts that come
next, with at most so many concatenations above each. -/
inductive Round (depth : Nat) : List Query → List Query → Prop
  | nil : Round depth [] []
  | cons {q : Query} {share : List (Query × Nat)} {queries parts : List Query}
      (made : ConcatOf q share) (shallow : ∀ p ∈ share, p.2 ≤ depth)
      (rest : Round depth queries parts) : Round depth (q :: queries) (share.map (·.1) ++ parts)

/-- Before the first round every part stands alone. -/
theorem round_self (parts : List Query) : Round 0 parts parts := by
  induction parts with
  | nil => exact .nil
  | cons q parts ih => exact .cons (.part q) (by simp) ih

theorem Round.succ (h : Round depth queries parts) : Round (depth + 1) queries parts := by
  induction h with
  | nil => exact .nil
  | cons made shallow _ ih =>
    refine .cons made ?_ ih
    intro p hp
    exact Nat.le_succ_of_le (shallow p hp)

/-- Two queries of a round that are concatenated are one query of the next. -/
theorem Round.concat {a b q : Query} {left right : List (Query × Nat)} (first : ConcatOf a left)
    (second : ConcatOf b right) (shallowLeft : ∀ p ∈ left, p.2 ≤ depth)
    (shallowRight : ∀ p ∈ right, p.2 ≤ depth) (joined : a.concat b = .ok q)
    (rest : Round (depth + 1) queries parts) :
    Round (depth + 1) (q :: queries) (left.map (·.1) ++ (right.map (·.1) ++ parts)) := by
  have shallow : ∀ p ∈ (left ++ right).map fun p => (p.1, p.2 + 1), p.2 ≤ depth + 1 := by
    intro p hp
    obtain ⟨below, mem, rfl⟩ := List.mem_map.1 hp
    apply Nat.succ_le_succ
    obtain mem | mem := List.mem_append.1 mem
    · exact shallowLeft below mem
    · exact shallowRight below mem
  have next := Round.cons (.concat first second joined) shallow rest
  rw [List.map_map, List.map_append, List.append_assoc] at next
  exact next

/-- A round succeeds and keeps the parts and their order. -/
theorem round_concatPairs (round : Round depth queries parts)
    (joinable : ∀ q ∈ queries, s.Joinable q.schema) :
    ∃ merged, concatPairs queries = .ok merged ∧ Round (depth + 1) merged parts ∧
      ∀ q ∈ merged, s.Joinable q.schema := by
  induction queries using concatPairs.induct generalizing parts with
  | case1 a b rest ih =>
    obtain _ | ⟨first, shallowLeft, round⟩ := round
    obtain _ | ⟨second, shallowRight, round⟩ := round
    obtain ⟨ofA, joinable⟩ := List.forall_mem_cons.1 joinable
    obtain ⟨ofB, joinable⟩ := List.forall_mem_cons.1 joinable
    obtain ⟨q, joined, fits⟩ := Query.exists_concat_of_joinable (ofA.symm.trans ofB)
    obtain ⟨others, merged, next, all⟩ := ih round joinable
    refine ⟨q :: others, ?_, .concat first second shallowLeft shallowRight joined next, ?_⟩
    · rw [concatPairs, joined, merged]
      rfl
    · exact List.forall_mem_cons.2 ⟨ofA.trans fits, all⟩
  | case2 queries single =>
    refine ⟨queries, ?_, round.succ, joinable⟩
    unfold concatPairs
    split
    · next a b rest => exact absurd rfl (single a b rest)
    · rfl

/-- From any round on, all that is left is concatenated, under one more concatenation for every
round. The induction is on the rounds; half of the queries, rounded up, are left after one. -/
theorem round_concatAll (round : Round depth queries parts) (nonempty : queries ≠ [])
    (joinable : ∀ q ∈ queries, s.Joinable q.schema) :
    ∃ q share, concatAll queries = .ok q ∧ ConcatOf q share ∧ share.map (·.1) = parts ∧
      ∀ p ∈ share, p.2 ≤ depth + Nat.clog 2 queries.length := by
  induction queries using concatAll.induct generalizing depth with
  | case1 => exact absurd rfl nonempty
  | case2 q =>
    obtain _ | ⟨made, shallow, round⟩ := round
    cases round
    refine ⟨q, _, by rw [concatAll], made, by simp, ?_⟩
    intro p hp
    exact Nat.le_add_right_of_le (shallow p hp)
  | case3 a b rest merged paired ih =>
    obtain ⟨others, again, next, fits⟩ := round_concatPairs round joinable
    have same : others = merged := Except.ok.inj (again.symm.trans paired)
    subst same
    have half := length_of_concatPairs paired
    have more : 2 ≤ (a :: b :: rest).length := by simp
    have left : others ≠ [] := by
      rintro rfl
      rw [List.length_nil] at half
      omega
    obtain ⟨q, share, all, made, kept, shallow⟩ := ih next left fits
    refine ⟨q, share, ?_, made, kept, ?_⟩
    · rw [concatAll]
      split
      · next result equal => rwa [← Except.ok.inj (paired.symm.trans equal)]
      · next e failed =>
        rw [paired] at failed
        cases failed
    · intro p hp
      have bound := shallow p hp
      rw [Nat.clog_of_two_le (by decide) more]
      rw [half] at bound
      have rounded : (a :: b :: rest).length + 2 - 1 = (a :: b :: rest).length + 1 := by omega
      rw [rounded]
      omega
  | case4 a b rest e failed =>
    obtain ⟨others, merged, -⟩ := round_concatPairs round joinable
    rw [failed] at merged
    cases merged

/-- Any number of queries whose columns have the same names, place by place, and types that have a
common type are concatenated. Under the concatenations that are made stand exactly these queries,
each once and in their order, and none of `n` queries lies under more than `⌈log₂ n⌉` of them. For
no query at all there is an error. -/
theorem concatAll_balanced :
    (∀ parts : List Query, parts ≠ [] →
      (∀ a ∈ parts, ∀ b ∈ parts, a.schema.Joinable b.schema) →
      ∃ q share, concatAll parts = .ok q ∧ ConcatOf q share ∧ share.map (·.1) = parts ∧
        ∀ p ∈ share, p.2 ≤ Nat.clog 2 parts.length) ∧
    concatAll [] = .error .nothingToShow := by
  constructor
  · intro parts nonempty joinable
    obtain ⟨first, mem⟩ := List.exists_mem_of_ne_nil parts nonempty
    have round := round_concatAll (round_self parts) nonempty (joinable first mem)
    rwa [Nat.zero_add] at round
  · rw [concatAll]

def yearlyLevels : List Query :=
  [⟨_, .table "levels2023" ⟨[.named "gauge" .integer], by decide, by decide⟩ (by decide)⟩,
    ⟨_, .table "levels2024" ⟨[.named "Gauge" .real], by decide, by decide⟩ (by decide)⟩,
    ⟨_, .table "levels2025" ⟨[.named "GAUGE" .integer], by decide, by decide⟩ (by decide)⟩]

theorem concatAll_balanced_yearlyLevels : yearlyLevels ≠ [] ∧
    (∀ a ∈ yearlyLevels, ∀ b ∈ yearlyLevels, a.schema.Joinable b.schema) ∧
    ∃ q share, concatAll yearlyLevels = .ok q ∧ ConcatOf q share ∧
      share.map (·.1) = yearlyLevels ∧ ∀ p ∈ share, p.2 ≤ 2 := by
  have nonempty : yearlyLevels ≠ [] := List.cons_ne_nil _ _
  have joinable : ∀ a ∈ yearlyLevels, ∀ b ∈ yearlyLevels, a.schema.Joinable b.schema := by
    decide
  have two : Nat.clog 2 yearlyLevels.length = 2 := by decide
  have all := concatAll_balanced.1 yearlyLevels nonempty joinable
  rw [two] at all
  exact ⟨nonempty, joinable, all⟩

end PivotTree

end Crosstab
