import Crosstab.Proofs.Meaning.Exact
import Crosstab.Proofs.Sql.Clauses

/-!
# The common value of a group

The common value of a group is written in SQL as its least value, if that is also its greatest. Both
skip nulls, so nulls neither agree nor disagree with the other members: the value is the one that all
members have which are not null, and null as soon as two of them differ.
-/

namespace Crosstab

variable {V : Type}

namespace Engine

/-- A value is the first by an order among the values that are not null; it is null if there are
none. -/
def IsExtreme (E : Engine V) (le : V → V → Prop) (values : List V) (v : V) : Prop :=
  (∀ w ∈ values, E.same w E.null = true) ∧ E.same v E.null = true ∨
    (v ∈ values ∧ E.same v E.null = false ∧ ∀ w ∈ values, E.same w E.null = false → le v w)

/-- Least and greatest values are those of an order, in which values that are the same are tied. -/
structure Extremes (E : Engine V) (le : V → V → Prop) : Prop where
  trans : ∀ a b c, le a b → le b c → le a c
  le_of_same : ∀ a b, E.same a b = true → le a b
  min : ∀ values, E.IsExtreme le values (E.min values)
  max : ∀ values, E.IsExtreme (fun a b => le b a) values (E.max values)

section
variable {E : Engine V} {le : V → V → Prop} {values : List V} {u v w : V}

/-- An extreme of values that are nulls or one value is this value. -/
theorem IsExtreme.same_of_agree (lawful : E.Lawful) (extreme : E.IsExtreme le values u)
    (mem : v ∈ values) (agree : ∀ w ∈ values, E.same w E.null = true ∨ E.same w v = true) :
    E.same u v = true := by
  obtain ⟨nulls, null⟩ | ⟨among, some, -⟩ := extreme
  · exact lawful.same_trans _ _ _ null (lawful.same_symm _ _ (nulls v mem))
  · obtain null | same := agree u among
    · rw [some] at null
      cases null
    · exact same

/-- An extreme of values of which one is not null is itself one of those. -/
theorem IsExtreme.some_of_mem (extreme : E.IsExtreme le values u) (mem : v ∈ values)
    (some : E.same v E.null = false) : u ∈ values ∧ E.same u E.null = false ∧ le u v := by
  obtain ⟨nulls, -⟩ | ⟨among, own, first⟩ := extreme
  · rw [nulls v mem] at some
    cases some
  · exact ⟨among, own, first v mem some⟩

/-- A null, or a value that another one comes before, is no extreme. -/
theorem IsExtreme.cons (trans : ∀ a b c, le a b → le b c → le a c)
    (extreme : E.IsExtreme le values u)
    (skipped : E.same v E.null = true ∨ ∃ b ∈ values, E.same b E.null = false ∧ le b v) :
    E.IsExtreme le (v :: values) u := by
  obtain ⟨nulls, null⟩ | ⟨among, own, first⟩ := extreme
  · obtain blank | ⟨b, mem, some, -⟩ := skipped
    · exact .inl ⟨List.forall_mem_cons.2 ⟨blank, nulls⟩, null⟩
    · rw [nulls b mem] at some
      cases some
  · refine .inr ⟨List.mem_cons_of_mem _ among, own, List.forall_mem_cons.2 ⟨fun some => ?_, first⟩⟩
    obtain blank | ⟨b, mem, before, le⟩ := skipped
    · rw [some] at blank
      cases blank
    · exact trans _ _ _ (first b mem before) le

theorem IsExtreme.congr {others : List V} (same : ∀ v, v ∈ values ↔ v ∈ others) :
    E.IsExtreme le values u ↔ E.IsExtreme le others u := by
  simp only [IsExtreme, same]

/-- If the least value is the greatest, every value that is not null is this value. -/
theorem Extremes.same_of_same (extremes : E.Extremes le)
    (antisymm : ∀ v ∈ values, ∀ w ∈ values, le v w → le w v → E.same v w = true)
    (meet : E.same (E.max values) (E.min values) = true) (mem : v ∈ values)
    (some : E.same v E.null = false) : E.same (E.min values) v = true := by
  obtain ⟨among, -, least⟩ := (extremes.min values).some_of_mem mem some
  obtain ⟨-, -, greatest⟩ := (extremes.max values).some_of_mem mem some
  have back := extremes.trans _ _ _ greatest (extremes.le_of_same _ _ meet)
  exact antisymm _ among _ mem least back

end

end Engine

namespace Sql

/-- The common value of a group, as it is written in SQL. It is a value that all members have, those
that are null apart; if two members differ that are not null, it is null. -/
theorem meaning_uniq {E : Engine V} (comparing : E.Comparing) {le : V → V → Prop}
    (extremes : E.Extremes le) {scope : Scope} {c : Context V} {group : List (List V)}
    (grouped : c.group = some group) {column : String} {values : List V}
    (drawn : group.mapM (scope.value? none column) = some values)
    (antisymm : ∀ v ∈ values, ∀ w ∈ values, le v w → le w v → E.same v w = true)
    (type : DataType) :
    ∃ result, (aggregateExpr .uniq column type).meaning E scope c = some result ∧
      (∀ v ∈ values, (∀ w ∈ values, E.same w E.null = true ∨ E.same w v = true) →
        E.same result v = true) ∧
      ∀ v ∈ values, ∀ w ∈ values, E.same v E.null = false → E.same w E.null = false →
        E.same v w = false → E.same result E.null = true := by
  have lawful := comparing.toLawful
  have outcome : E.isTrue (E.binary .eq (E.min values) (E.max values)) =
      (E.same (E.min values) (E.max values) && !E.same (E.min values) E.null) :=
    comparing.eq_true _ _
  refine ⟨_, meaning_aggregateExpr grouped drawn .uniq type, ?_, ?_⟩
  · intro v mem agree
    have low := (extremes.min values).same_of_agree lawful mem agree
    have high := (extremes.max values).same_of_agree lawful mem agree
    have meet := lawful.same_trans _ _ _ low (lawful.same_symm _ _ high)
    simp only [Aggregate.apply, outcome, meet, Bool.true_and]
    by_cases null : E.same (E.min values) E.null = true
    · have nullResult := lawful.same_trans _ _ _ (lawful.same_symm _ _ null) low
      simpa [null] using nullResult
    · simpa [null] using low
  · intro v hv w hw someV someW differ
    have apart : E.same (E.min values) (E.max values) = false := by
      refine Bool.eq_false_iff.2 fun meet => ?_
      have meet := lawful.same_symm _ _ meet
      have first := extremes.same_of_same antisymm meet hv someV
      have second := extremes.same_of_same antisymm meet hw someW
      have same := lawful.same_trans _ _ _ (lawful.same_symm _ _ first) second
      rw [differ] at same
      cases same
    simp only [Aggregate.apply, outcome, apart]
    exact lawful.same_refl _

end Sql

/-! ## Least and greatest values of an engine -/

namespace Datum

variable {first : Datum → Datum → Bool}

theorem same_null_eq_false {v : Datum} : unbounded.same v unbounded.null = false ↔ v ≠ .null := by
  rw [← Bool.not_eq_true, same_unbounded]
  rfl

theorem isExtreme_foldl (total : ∀ a b, first a b = true ∨ first b a = true)
    (trans : ∀ a b c, first a b = true → first b c = true → first a c = true)
    (values : List Datum) (best : Datum) :
    unbounded.IsExtreme (fun a b => first a b = true) (best :: values) (values.foldl
      (fun best v => if v = null ∨ (best ≠ null ∧ first best v) then best else v) best) := by
  induction values generalizing best with
  | nil =>
    by_cases blank : best = null
    · subst blank
      exact .inl ⟨List.forall_mem_singleton.2 (same_unbounded.2 rfl), same_unbounded.2 rfl⟩
    · refine .inr ⟨List.mem_cons_self, same_null_eq_false.2 blank, List.forall_mem_singleton.2 ?_⟩
      exact fun _ => (total best best).elim id id
  | cons v values ih =>
    rw [List.foldl_cons]
    by_cases keeps : v = null ∨ (best ≠ null ∧ first best v)
    · rw [if_pos keeps]
      refine (Engine.IsExtreme.congr fun w => ?_).1 ((ih best).cons (v := v) trans ?_)
      · simp only [List.mem_cons]
        exact or_left_comm
      · obtain rfl | ⟨some, before⟩ := keeps
        · exact .inl (same_unbounded.2 rfl)
        · exact .inr ⟨best, List.mem_cons_self, same_null_eq_false.2 some, before⟩
    · rw [if_neg keeps]
      obtain ⟨some, later⟩ := not_or.1 keeps
      refine (ih v).cons trans ?_
      by_cases blank : best = null
      · exact .inl (same_unbounded.2 blank)
      · have before : first v best = true := by
          refine (total v best).resolve_right fun earlier => later ⟨blank, earlier⟩
        exact .inr ⟨v, List.mem_cons_self, same_null_eq_false.2 some, before⟩

/-- The extreme of values is the first of them that are not null. -/
theorem isExtreme_extreme (total : ∀ a b, first a b = true ∨ first b a = true)
    (trans : ∀ a b c, first a b = true → first b c = true → first a c = true)
    (values : List Datum) :
    unbounded.IsExtreme (fun a b => first a b = true) values (extreme first values) := by
  obtain ⟨nulls, blank⟩ | ⟨among, some, before⟩ := isExtreme_foldl total trans values null
  · exact .inl ⟨fun w mem => nulls w (List.mem_cons_of_mem _ mem), blank⟩
  · refine .inr ⟨?_, some, fun w mem => before w (List.mem_cons_of_mem _ mem)⟩
    exact (List.mem_cons.1 among).resolve_left (same_null_eq_false.1 some)

end Datum

theorem unbounded_extremes : unbounded.Extremes fun a b => Datum.le a b = true where
  trans _ _ _ := Datum.le_trans
  le_of_same := unbounded_sorts.le_of_same
  min := Datum.isExtreme_extreme Datum.le_total fun _ _ _ => Datum.le_trans
  max := Datum.isExtreme_extreme (fun a b => Datum.le_total b a) fun _ _ _ h h' =>
    Datum.le_trans h' h

/-! ## Readings -/

def readings : Query where
  schema := ⟨[.named "level" .integer], by decide, by decide⟩
  plan := .table "waterLevels" _ (by decide)

def readingsOf (levels : List Datum) : Tables Datum := fun name =>
  if name = "waterLevels" then some {
    names := ["level"]
    rows := levels.map fun level => [level]
    distinct := by decide
    wide := by
      intro row mem
      obtain ⟨level, -, rfl⟩ := List.mem_map.1 mem
      rfl }
  else none

def commonLevel : Except BuildError Query := readings.groupBy [] [⟨.uniq, "level"⟩]

/-- A reading without a level does not count against a common level. -/
theorem meaning_uniq_readings : unbounded.Comparing ∧
    unbounded.Extremes (fun a b => Datum.le a b = true) ∧
    ∃ result, (Sql.aggregateExpr .uniq "level" .integer).meaning unbounded [("t0", ["level"])]
      ⟨[.int 5], some [[.int 5], [.null], [.int 5]], none⟩ = some result ∧ result = .int 5 := by
  have drawn : [[Datum.int 5], [.null], [.int 5]].mapM
      (Sql.Scope.value? [("t0", ["level"])] none "level") = some [.int 5, .null, .int 5] := by
    decide
  obtain ⟨result, shown, agreed, -⟩ := Sql.meaning_uniq unbounded_comparing unbounded_extremes
    (c := ⟨[.int 5], some [[.int 5], [.null], [.int 5]], none⟩) rfl drawn (by decide) .integer
  have five := agreed (.int 5) List.mem_cons_self (by decide)
  exact ⟨unbounded_comparing, unbounded_extremes, result, shown, same_unbounded.1 five⟩

/-- A reading without a level and one with a level have that level in common. -/
theorem commonLevel_shows_level : ∃ q st, commonLevel = .ok q ∧ q.statement = .ok st ∧
    unbounded.same .null (.int 5) = false ∧
    st.rows unbounded (readingsOf [.null, .int 5]) = some [[.int 5]] :=
  ⟨_, _, rfl, rfl, rfl, rfl⟩

end Crosstab
