import Crosstab.Proofs.Json.Signs
import Crosstab.Proofs.Sql.Signs
import Crosstab.Workbench

/-!
# Equal queries in each other's place

Queries that compare equal, as numbered queries of a workbench or node by node, can stand for each
other in everything but the signs of their constant zeros, which JSON and SQL show.

* `Query.Interchangeable` says in what they agree;
* `Workbench.Made` are the workbenches that come about, where a query was made of earlier ones;
* `Workbench.same_iff_equals` and `Workbench.same_iff_sources`: what two numbers are compared by;
* `Workbench.same_symm` and `Workbench.same_trans`: the comparison is symmetric and transitive;
* `Workbench.unsigned_of_same` and `Workbench.same_of_equals` tie it to the queries themselves.
-/

namespace Crosstab

/-- Two queries agree in everything but the signs of their constant zeros: schema, failure to
compile, and the statement and the constants without signs. The signs alone tell their JSON texts
apart; without a difference there the queries are one. -/
structure Query.Interchangeable (a b : Query) : Prop where
  schema : a.schema = b.schema
  failure : ∀ e, a.sql = .error e ↔ b.sql = .error e
  statement : a.statement.map Sql.Statement.unsigned = b.statement.map Sql.Statement.unsigned
  constants : a.plan.reals.map Double.unsigned = b.plan.reals.map Double.unsigned
  text : a.toJson.render = b.toJson.render ↔ a.plan.reals = b.plan.reals
  identical : a.plan.reals = b.plan.reals → a = b

theorem Query.interchangeable {a b : Query} (same : a.unsigned = b.unsigned) :
    a.Interchangeable b where
  schema := show a.unsigned.schema = b.unsigned.schema from congrArg Query.schema same
  failure e := by
    rw [sql, sql, map_eq_error_iff, map_eq_error_iff, (sameBy_statement same).error_iff]
  statement := sameBy_statement same
  constants := map_unsigned_reals same
  text := render_eq_iff same
  identical := eq_of_unsigned same

namespace Workbench

variable {w : Workbench} {x y z : Workpiece} {a b c : Nat}

/-- The numbers that a query was built on stand for the queries below its top. -/
def Over (w : Workbench) (x : Workpiece) : Prop :=
  ∀ numbers, x.sources = some numbers →
    List.Forall₂ (fun i child => w.query? i = some child) numbers x.query.plan.children

/-- The workbenches that come about one number after the other. -/
inductive Made : Workbench → Prop
  | empty : Made .empty
  | push {w : Workbench} {piece : Option Workpiece} (made : Made w)
      (built : ∀ x ∈ piece, w.Over x) : Made (w.push piece)

theorem piece?_push (w : Workbench) (piece : Option Workpiece) (n : Nat) :
    (w.push piece).piece? n = if n = w.pieces.size then piece else w.piece? n := by
  simp only [piece?, push, Array.getElem?_push]
  split <;> rfl

theorem query?_eq_some_iff {n : Nat} {q : Query} :
    w.query? n = some q ↔ ∃ x, w.piece? n = some x ∧ x.query = q := Option.map_eq_some_iff

theorem lt_size_of_piece? {n : Nat} (h : w.piece? n = some x) : n < w.pieces.size := by
  by_contra beyond
  simp [piece?, Array.getElem?_eq_none (Nat.not_lt.1 beyond)] at h

theorem query?_push {piece : Option Workpiece} {n : Nat} {q : Query} (h : w.query? n = some q) :
    n < w.pieces.size ∧ (w.push piece).query? n = some q := by
  obtain ⟨x, hx, rfl⟩ := query?_eq_some_iff.1 h
  have earlier := lt_size_of_piece? hx
  refine ⟨earlier, query?_eq_some_iff.2 ⟨x, ?_, rfl⟩⟩
  rw [piece?_push, if_neg (Nat.ne_of_lt earlier), hx]

/-- A query was built on earlier queries, and these are the ones below its top. -/
theorem Made.children (made : w.Made) {n : Nat} {numbers : List Nat} (hx : w.piece? n = some x)
    (sources : x.sources = some numbers) :
    List.Forall₂ (fun i child => i < n ∧ w.query? i = some child) numbers
      x.query.plan.children := by
  induction made with
  | empty => simp [piece?, Workbench.empty] at hx
  | @push w piece made built ih =>
    rw [piece?_push] at hx
    split at hx
    · next last =>
      subst last
      exact (built x hx numbers sources).imp fun i child h => query?_push h
    · exact (ih hx).imp fun i child h => ⟨h.1, (query?_push h.2).2⟩

theorem Made.earlier (made : w.Made) {n : Nat} {numbers : List Nat} (hx : w.piece? n = some x)
    (sources : x.sources = some numbers) : ∀ i ∈ numbers, i < n := by
  intro i hi
  obtain ⟨_, -, earlier, -⟩ := exists_of_mem_left (made.children hx sources) hi
  exact earlier

section
variable (made : w.Made) {xs ys : List Nat} (hx : w.piece? a = some x) (hxs : x.sources = some xs)
  (hy : w.piece? b = some y) (hys : y.sources = some ys) {R : Nat → Nat → Prop}
  {S : Query → Query → Prop}
include made hx hxs hy hys

/-- What follows for queries from a relation of numbers holds of the queries below. -/
theorem Made.children_of_sources (below : List.Forall₂ R xs ys)
    (each : ∀ i j u v, i < a → w.piece? i = some u → w.piece? j = some v → R i j →
      S u.query v.query) : List.Forall₂ S x.query.plan.children y.query.plan.children := by
  have first : List.Forall₂ (fun child j => ∃ i, (i < a ∧ w.query? i = some child) ∧ R i j)
      x.query.plan.children ys :=
    forall₂_comp (made.children hx hxs).flip below fun _ i _ hi h => ⟨i, hi, h⟩
  refine forall₂_comp first (made.children hy hys) ?_
  rintro child j child' ⟨i, ⟨earlier, hi⟩, h⟩ ⟨-, hj⟩
  obtain ⟨u, hu, rfl⟩ := query?_eq_some_iff.1 hi
  obtain ⟨v, hv, rfl⟩ := query?_eq_some_iff.1 hj
  exact each i j u v earlier hu hv h

/-- What follows for numbers from a relation of queries holds of the sources. -/
theorem Made.sources_of_children
    (below : List.Forall₂ S x.query.plan.children y.query.plan.children)
    (each : ∀ i j u v, i < a → w.piece? i = some u → w.piece? j = some v → S u.query v.query →
      R i j) : List.Forall₂ R xs ys := by
  have first : List.Forall₂ (fun i child' => ∃ child, (i < a ∧ w.query? i = some child) ∧
      S child child') xs y.query.plan.children :=
    forall₂_comp (made.children hx hxs) below fun _ child _ hi h => ⟨child, hi, h⟩
  refine forall₂_comp first (made.children hy hys).flip ?_
  rintro i child' j ⟨child, ⟨earlier, hi⟩, h⟩ ⟨-, hj⟩
  obtain ⟨u, hu, rfl⟩ := query?_eq_some_iff.1 hi
  obtain ⟨v, hv, rfl⟩ := query?_eq_some_iff.1 hj
  exact each i j u v earlier hu hv h

end

/-! ## What the comparison comes to -/

theorem same_self (w : Workbench) (n : Nat) : w.same n n = true := by
  rw [same, if_pos rfl]

theorem exists_pieces (different : a ≠ b) (h : w.same a b = true) :
    (∃ x, w.piece? a = some x) ∧ ∃ y, w.piece? b = some y := by
  rw [same, if_neg different] at h
  split at h
  · next hx hy => exact ⟨⟨_, hx⟩, ⟨_, hy⟩⟩
  · cases h

/-- One of two queries was not built here. -/
def Foreign (x y : Workpiece) : Prop := x.sources = none ∨ y.sources = none

theorem foreign_or_sources (x y : Workpiece) :
    Foreign x y ∨ ∃ xs ys, x.sources = some xs ∧ y.sources = some ys := by
  cases hxs : x.sources with
  | none => exact .inl (.inl hxs)
  | some xs =>
    cases hys : y.sources with
    | none => exact .inl (.inr hys)
    | some ys => exact .inr ⟨xs, ys, rfl, rfl⟩

section
variable (hx : w.piece? a = some x) (hy : w.piece? b = some y) (different : a ≠ b)
include hx hy different

/-- Queries that were not both built here are compared node by node. -/
theorem same_iff_equals (foreign : Foreign x y) :
    w.same a b = true ↔ x.query.equals y.query = true := by
  rw [same, if_neg different, hx, hy]
  obtain missing | missing := foreign
  · simp only [missing]
  · cases sources : x.sources <;> simp only [sources, missing]

/-- Queries that were built here are compared by their tops and the numbers that they were built
on. -/
theorem same_iff_sources (made : w.Made) {xs ys : List Nat} (hxs : x.sources = some xs)
    (hys : y.sources = some ys) : w.same a b = true ↔
      x.query.plan.headEquals y.query.plan = true ∧
        List.Forall₂ (fun i j => w.same i j = true) xs ys := by
  have earlier := made.earlier hx hxs
  rw [same, if_neg different, hx, hy]
  simp only [hxs, hys, Bool.and_eq_true]
  refine and_congr_right fun head => ?_
  have size : xs.length = ys.length := by
    rw [(made.children hx hxs).length_eq, (made.children hy hys).length_eq, Plan.length_children,
      Plan.length_children, ← Head.arity_unsigned, (Plan.headEquals_iff.1 head).1,
      Head.arity_unsigned]
  rw [List.forall₂_iff_zip, and_iff_right size, List.all_eq_true]
  constructor
  · intro every i j mem
    have below := every (i, j) mem
    rwa [dif_pos (earlier i (List.of_mem_zip mem).1)] at below
  · rintro every ⟨i, j⟩ mem
    rw [dif_pos (earlier i (List.of_mem_zip mem).1)]
    exact every mem

end

/-! ## An equivalence of queries -/

section
variable (made : w.Made)
include made

/-- Numbers that compare equal stand for queries that only differ in the signs of zeros. -/
theorem unsigned_of_same (hx : w.piece? a = some x) (hy : w.piece? b = some y)
    (same : w.same a b = true) : x.query.unsigned = y.query.unsigned := by
  induction a using Nat.strong_induction_on generalizing b x y with
  | h a ih =>
    by_cases ab : a = b
    · subst ab
      rw [Option.some.inj (hx.symm.trans hy)]
    obtain foreign | ⟨xs, ys, hxs, hys⟩ := foreign_or_sources x y
    · exact (Query.equals_iff.1 ((same_iff_equals hx hy ab foreign).1 same)).1
    · obtain ⟨top, below⟩ := (same_iff_sources hx hy ab made hxs hys).1 same
      refine Query.unsigned_eq_iff.2 ⟨(Plan.headEquals_iff.1 top).1, ?_⟩
      refine map_eq_map_of_forall₂ (made.children_of_sources hx hxs hy hys below ?_) fun _ _ h => h
      exact fun i j u v earlier hu hv h => ih i earlier hu hv h

/-- Numbers of queries that are equal node by node compare equal. -/
theorem same_of_equals (hx : w.piece? a = some x) (hy : w.piece? b = some y)
    (equal : x.query.equals y.query = true) : w.same a b = true := by
  induction a using Nat.strong_induction_on generalizing b x y with
  | h a ih =>
    by_cases ab : a = b
    · subst ab
      exact w.same_self a
    obtain foreign | ⟨xs, ys, hxs, hys⟩ := foreign_or_sources x y
    · exact (same_iff_equals hx hy ab foreign).2 equal
    · obtain ⟨top, below⟩ := Plan.equals_iff_children.1 equal
      refine (same_iff_sources hx hy ab made hxs hys).2 ⟨top, ?_⟩
      refine made.sources_of_children hx hxs hy hys below ?_
      exact fun i j u v earlier hu hv h => ih i earlier hu hv h

theorem same_symm (same : w.same a b = true) : w.same b a = true := by
  induction a using Nat.strong_induction_on generalizing b with
  | h a ih =>
    by_cases ab : a = b
    · rwa [ab] at same ⊢
    obtain ⟨⟨x, hx⟩, y, hy⟩ := exists_pieces ab same
    obtain foreign | ⟨xs, ys, hxs, hys⟩ := foreign_or_sources x y
    · exact same_of_equals made hy hx
        (Query.equals_symm ((same_iff_equals hx hy ab foreign).1 same))
    · obtain ⟨top, below⟩ := (same_iff_sources hx hy ab made hxs hys).1 same
      refine (same_iff_sources hy hx (Ne.symm ab) made hys hxs).2
        ⟨Plan.headEquals_symm top, List.Forall₂.flip ?_⟩
      refine (forall₂_mem below).imp fun i j h => ?_
      exact ih i (made.earlier hx hxs i h.1) h.2

theorem same_trans (first : w.same a b = true) (second : w.same b c = true) :
    w.same a c = true := by
  induction a using Nat.strong_induction_on generalizing b c with
  | h a ih =>
    by_cases ab : a = b
    · rwa [ab]
    by_cases bc : b = c
    · rwa [← bc]
    by_cases ac : a = c
    · rw [ac]
      exact w.same_self c
    obtain ⟨⟨x, hx⟩, y, hy⟩ := exists_pieces ab first
    obtain ⟨-, z, hz⟩ := exists_pieces bc second
    have xy := unsigned_of_same made hx hy first
    have yz := unsigned_of_same made hy hz second
    -- a comparison node by node on either side rules out constants that are not numbers
    obtain foreign | ⟨xs, ys, hxs, hys⟩ := foreign_or_sources x y
    · have equal := (same_iff_equals hx hy ab foreign).1 first
      have numbers := (Query.equals_iff.1 equal).2
      exact same_of_equals made hx hz (Query.equals_iff.2 ⟨xy.trans yz, numbers⟩)
    obtain foreign | ⟨ys', zs, hys', hzs⟩ := foreign_or_sources y z
    · have equal := (same_iff_equals hy hz bc foreign).1 second
      exact same_of_equals made hx hz (Query.equals_of_unsigned xy equal)
    obtain rfl := Option.some.inj (hys.symm.trans hys')
    obtain ⟨top, below⟩ := (same_iff_sources hx hy ab made hxs hys).1 first
    obtain ⟨next, rest⟩ := (same_iff_sources hy hz bc made hys hzs).1 second
    refine (same_iff_sources hx hz ac made hxs hzs).2 ⟨Plan.headEquals_trans top next, ?_⟩
    refine forall₂_comp (forall₂_mem below) rest fun i j k hij hjk => ?_
    exact ih i (made.earlier hx hxs i hij.1) hij.2 hjk

/-- Equality of numbered queries is symmetric and transitive, takes in all queries that are equal
node by node, and queries that are equal can stand for each other. -/
theorem same_interchangeable :
    (∀ {i j p q}, w.query? i = some p → w.query? j = some q → w.same i j = true →
      p.Interchangeable q) ∧
    (∀ {i j p q}, w.query? i = some p → w.query? j = some q → p.equals q = true →
      w.same i j = true) ∧
    (∀ {i j}, w.same i j = true → w.same j i = true) ∧
    ∀ {i j k}, w.same i j = true → w.same j k = true → w.same i k = true := by
  refine ⟨?_, ?_, same_symm made, same_trans made⟩
  · intro i j p q hp hq same
    obtain ⟨x, hx, rfl⟩ := query?_eq_some_iff.1 hp
    obtain ⟨y, hy, rfl⟩ := query?_eq_some_iff.1 hq
    exact Query.interchangeable (unsigned_of_same made hx hy same)
  · intro i j p q hp hq equal
    obtain ⟨x, hx, rfl⟩ := query?_eq_some_iff.1 hp
    obtain ⟨y, hy, rfl⟩ := query?_eq_some_iff.1 hq
    exact same_of_equals made hx hy equal

end

def soundings : Query :=
  ⟨⟨[.named "depth" .real], by decide, by decide⟩, .table "soundings" _ (by decide)⟩

def soundingsAtZero (negative : Bool) : Query :=
  ⟨soundings.schema, .filter soundings.plan
    (.combine .eq [.column "depth", .const (.real (.zero negative)) .real])
    (by cases negative <;> rfl)⟩

/-- All soundings under 0, and under 1 and 2 those at the two zeros. -/
def soundingsBench : Workbench :=
  ((empty.push (some ⟨soundings, some []⟩)).push (some ⟨soundingsAtZero false, some [0]⟩)).push
    (some ⟨soundingsAtZero true, some [0]⟩)

theorem made_soundingsBench : soundingsBench.Made := by
  refine ((Made.empty.push ?_).push ?_).push ?_
  all_goals
    rintro x ⟨⟩ numbers ⟨⟩
  · exact .nil
  · exact .cons rfl .nil
  · exact .cons rfl .nil

theorem same_interchangeable_soundings : soundingsBench.Made ∧ soundingsBench.same 1 2 = true ∧
    (soundingsAtZero false).Interchangeable (soundingsAtZero true) ∧
      soundingsBench.same 2 1 = true := by
  obtain ⟨stand, equal, symm, -⟩ := same_interchangeable made_soundingsBench
  have same : soundingsBench.same 1 2 = true := equal rfl rfl (by decide +kernel)
  exact ⟨made_soundingsBench, same, stand rfl rfl same, symm same⟩

/-- The two zeros are equal and have different texts. -/
theorem not_interchangeable_texts : (soundingsAtZero false).equals (soundingsAtZero true) = true ∧
    (soundingsAtZero false).toJson.render ≠ (soundingsAtZero true).toJson.render ∧
    (soundingsAtZero false).sql = .ok
      "SELECT \"depth\" FROM \"soundings\" AS \"t0\" WHERE (\"depth\" = 0.0)" ∧
    (soundingsAtZero true).sql = .ok
      "SELECT \"depth\" FROM \"soundings\" AS \"t0\" WHERE (\"depth\" = -0.0)" := by
  have equal : (soundingsAtZero false).equals (soundingsAtZero true) = true := by decide +kernel
  refine ⟨equal, fun text => ?_, by decide +kernel, by decide +kernel⟩
  have constants := (Query.render_eq_iff (Query.equals_iff.1 equal).1).1 text
  exact absurd constants (by decide +kernel)

end Workbench

end Crosstab
