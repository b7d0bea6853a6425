import Mathlib.Algebra.BigOperators.Group.List.Basic
import Mathlib.Algebra.Ring.Int.Defs
import Mathlib.Data.List.Sort
import Crosstab.Proofs.Meaning.Integers
import Crosstab.Proofs.Meaning.Order

/-!
# Exact sums

When sums of integers are exact, and an engine in which they are. The engine computes with integers
of any size, keeps truth values as integers, and sorts nulls before numbers before texts. Averages,
and arithmetic on anything but integers, give no value.

* `AddUp` says that values are integers with a given sum, a null counting as zero, `Engine.Exact`
  that an engine's sums are these;
* `sum_classes` adds up over groups of rows;
* `unbounded` is the engine, `unboundedSales` a small database for it.
-/

namespace Crosstab

/-- The values are read as integers with the given sum. -/
def AddUp {V : Type} (read : V → Option Int) (values : List V) (sum : Int) : Prop :=
  ∃ numbers : List Int, values.map read = numbers.map some ∧ numbers.sum = sum

/-- Integers are read as they are, and a null as zero; sums are exact. -/
structure Engine.Exact {V : Type} (E : Engine V) (read : V → Option Int) : Prop where
  null : read E.null = some 0
  int : ∀ i : Int64, read (E.constant (.int i)) = some i.toInt
  sum : ∀ values total, AddUp read values total → read (E.sum values) = some total

section
variable {V α : Type} {read : V → Option Int}

theorem addUp_map {rows : List α} {f : α → V} {g : α → Int}
    (h : ∀ row ∈ rows, read (f row) = some (g row)) : AddUp read (rows.map f) (rows.map g).sum := by
  refine ⟨rows.map g, ?_, rfl⟩
  rw [List.map_map, List.map_map]
  exact List.map_congr_left h

/-- Values of which exactly one has a property. -/
theorem sum_of_one {values : List V} {p : V → Bool} (c : Int)
    (distinct : values.Pairwise fun v w => ¬ (p v = true ∧ p w = true))
    (some : ∃ v ∈ values, p v = true) : (values.map fun v => if p v then c else 0).sum = c := by
  induction values with
  | nil => simp at some
  | cons v values ih =>
    obtain ⟨first, others⟩ := List.pairwise_cons.1 distinct
    by_cases own : p v = true
    · have none : (values.map fun w => if p w then c else 0).sum = 0 := by
        refine List.sum_eq_zero fun x hx => ?_
        obtain ⟨w, hw, rfl⟩ := List.mem_map.1 hx
        exact if_neg fun other => first w hw ⟨own, other⟩
      rw [List.map_cons, List.sum_cons, none, if_pos own, Int.add_zero]
    · have later : ∃ w ∈ values, p w = true := by
        obtain ⟨w, hw, hp⟩ := some
        obtain rfl | hw := List.mem_cons.1 hw
        · exact absurd hp own
        · exact ⟨w, hw, hp⟩
      rw [List.map_cons, List.sum_cons, ih others later, if_neg own, Int.zero_add]

/-- If every row has exactly one of the values as its key, sums over the rows of each value add up
to the sum over all rows. -/
theorem sum_classes {E : Engine V} (lawful : E.Lawful) {values : List V} {key : α → V} (f : α → Int)
    (distinct : values.Pairwise fun v w => E.same v w = false) {rows : List α}
    (all : ∀ row ∈ rows, ∃ v ∈ values, E.same (key row) v = true) :
    (values.map fun v => ((rows.filter fun row => E.same (key row) v).map f).sum).sum =
      (rows.map f).sum := by
  induction rows with
  | nil => simp
  | cons row rows ih =>
    obtain ⟨own, others⟩ := List.forall_mem_cons.1 all
    have step (v : V) : (((row :: rows).filter fun row => E.same (key row) v).map f).sum =
        (if E.same (key row) v then f row else 0) +
          ((rows.filter fun row => E.same (key row) v).map f).sum := by
      rw [List.filter_cons]
      split
      · rw [List.map_cons, List.sum_cons]
      · rw [Int.zero_add]
    have one : (values.map fun v => if E.same (key row) v then f row else 0).sum = f row := by
      refine sum_of_one (f row) (distinct.imp fun {v w} different => ?_) own
      rintro ⟨hv, hw⟩
      have same := lawful.same_trans _ _ _ (lawful.same_symm _ _ hv) hw
      rw [different] at same
      cases same
    simp only [step, List.sum_map_add, one, ih others, List.map_cons, List.sum_cons]

end

/-! ## An engine -/

/-- A value of an engine with integers of any size. -/
inductive Datum
  | null
  | int (value : Int)
  | real (value : Double)
  | text (value : String)
  deriving DecidableEq

namespace Datum

/-- What a value counts as where a truth value is expected; nothing if it is null. -/
def truth : Datum → Option Bool
  | null => none
  | int i => some (i != 0)
  | real _ | text _ => some false

/-- The value of a truth value that may be unknown. -/
def ofTruth : Option Bool → Datum
  | none => null
  | some b => int (if b then 1 else 0)

theorem truth_ofTruth (b : Option Bool) : (ofTruth b).truth = b := by
  rcases b with _ | _ | _ <;> rfl

def toInt? : Datum → Option Int
  | null => some 0
  | int i => some i
  | real _ | text _ => none

/-- A value stands at or before another. Reals stand between integers and texts, in no order. -/
def le : Datum → Datum → Bool
  | null, _ => true
  | _, null => false
  | int a, int b => decide (a ≤ b)
  | int _, _ => true
  | _, int _ => false
  | real _, _ => true
  | _, real _ => false
  | text a, text b => decide (a ≤ b)

theorem le_total (a b : Datum) : le a b = true ∨ le b a = true := by
  cases a <;> cases b <;> simp [le, Int.le_total, String.le_total]

theorem le_trans {a b c : Datum} (h : le a b = true) (h' : le b c = true) : le a c = true := by
  cases a <;> cases b <;> cases c <;> simp_all [le]
  · exact Int.le_trans h h'
  · exact String.le_trans h h'

def compared (outcome : Bool) (a b : Datum) : Datum :=
  if a = null ∨ b = null then null else ofTruth (some outcome)

def arithmetic (op : Int → Int → Int) : Datum → Datum → Datum
  | int a, int b => int (op a b)
  | _, _ => null

def combine (op : Operation) (a b : Datum) : Datum :=
  match op with
  | .and => ofTruth (Scalar.both a.truth b.truth)
  | .or => ofTruth ((Scalar.both (a.truth.map not) (b.truth.map not)).map not)
  | .eq => compared (decide (a = b)) a b
  | .ne => compared (decide (a ≠ b)) a b
  | .lt => compared (!b.le a) a b
  | .le => compared (a.le b) a b
  | .gt => compared (!a.le b) a b
  | .ge => compared (b.le a) a b
  | .add => arithmetic (· + ·) a b
  | .sub => arithmetic (· - ·) a b
  | .mul => arithmetic (· * ·) a b
  | .div => arithmetic Int.tdiv a b
  | .not | .isNull | .isNotNull => null

/-- The first of the values that are not null, by an order. -/
def extreme (first : Datum → Datum → Bool) (values : List Datum) : Datum :=
  values.foldl (fun best v => if v = null ∨ (best ≠ null ∧ first best v) then best else v) null

/-- The sum of the integers; null if there is nothing to add. -/
def total (values : List Datum) : Datum :=
  match values.mapM toInt? with
  | some numbers => if values.all (· = null) then null else int numbers.sum
  | none => null

theorem toInt?_total {values : List Datum} {sum : Int} (h : AddUp toInt? values sum) :
    (total values).toInt? = some sum := by
  obtain ⟨numbers, each, rfl⟩ := h
  have all : values.mapM toInt? = some numbers := by
    rw [mapM_eq_some_iff]
    have related : List.Forall₂ (· = ·) (values.map toInt?) (numbers.map some) :=
      List.forall₂_eq_eq_eq ▸ each
    exact List.forall₂_map_right_iff.1 (List.forall₂_map_left_iff.1 related)
  rw [total, all]
  by_cases none : values.all (· = null) = true
  · have zero : numbers.sum = 0 := by
      refine List.sum_eq_zero fun n hn => ?_
      obtain ⟨v, hv, eq⟩ := List.mem_map.1 (each ▸ List.mem_map_of_mem hn)
      rw [of_decide_eq_true (List.all_eq_true.1 none v hv)] at eq
      exact (Option.some.inj eq).symm
    rw [zero]
    simp [none, toInt?]
  · simp [none, toInt?]

def directed (ascending : Bool) (a b : Datum) : Bool := if ascending then le a b else le b a

/-- Values stand at or before other values in the order of precedence. -/
def precedes : List Bool → List Datum → List Datum → Bool
  | [], _, _ => true
  | ascending :: directions, as, bs =>
    directed ascending (as.headD null) (bs.headD null) &&
      (!directed ascending (bs.headD null) (as.headD null) ||
        precedes directions as.tail bs.tail)

theorem directed_total (ascending : Bool) (a b : Datum) :
    directed ascending a b = true ∨ directed ascending b a = true := by
  cases ascending
  · exact le_total b a
  · exact le_total a b

theorem directed_trans {ascending : Bool} {a b c : Datum} (h : directed ascending a b = true)
    (h' : directed ascending b c = true) : directed ascending a c = true := by
  cases ascending
  · exact le_trans h' h
  · exact le_trans h h'

theorem precedes_cons_iff {ascending : Bool} {directions : List Bool} {as bs : List Datum} :
    precedes (ascending :: directions) as bs = true ↔
      directed ascending (as.headD null) (bs.headD null) = true ∧
        (directed ascending (bs.headD null) (as.headD null) = true →
          precedes directions as.tail bs.tail = true) := by
  rw [precedes, Bool.and_eq_true, Bool.or_eq_true, Bool.not_eq_true', ← Bool.not_eq_true,
    imp_iff_not_or]

theorem precedes_total (directions : List Bool) (as bs : List Datum) :
    precedes directions as bs = true ∨ precedes directions bs as = true := by
  induction directions generalizing as bs with
  | nil => exact .inl rfl
  | cons ascending directions ih =>
    rw [precedes_cons_iff, precedes_cons_iff]
    by_cases forth : directed ascending (as.headD null) (bs.headD null) = true
    · by_cases back : directed ascending (bs.headD null) (as.headD null) = true
      · exact (ih as.tail bs.tail).imp (fun h => ⟨forth, fun _ => h⟩) fun h => ⟨back, fun _ => h⟩
      · exact .inl ⟨forth, fun h => absurd h back⟩
    · have back := (directed_total ascending (as.headD null) (bs.headD null)).resolve_left forth
      exact .inr ⟨back, fun h => absurd h forth⟩

theorem precedes_trans {directions : List Bool} {as bs cs : List Datum}
    (h : precedes directions as bs = true) (h' : precedes directions bs cs = true) :
    precedes directions as cs = true := by
  induction directions generalizing as bs cs with
  | nil => rfl
  | cons ascending directions ih =>
    obtain ⟨first, ties⟩ := precedes_cons_iff.1 h
    obtain ⟨second, ties'⟩ := precedes_cons_iff.1 h'
    refine precedes_cons_iff.2 ⟨directed_trans first second, fun back => ?_⟩
    exact ih (ties (directed_trans second back)) (ties' (directed_trans back first))

theorem keysLe_of_precedes {directions : List Bool} {xs ys : List (Datum × Bool)}
    (hx : xs.map (·.2) = directions) (hy : ys.map (·.2) = directions)
    (h : precedes directions (xs.map (·.1)) (ys.map (·.1)) = true) :
    KeysLe (fun a b => le a b = true) xs ys := by
  induction directions generalizing xs ys with
  | nil =>
    rw [List.map_eq_nil_iff.1 hx]
    trivial
  | cons ascending directions ih =>
    obtain ⟨x, xs, rfl, own, hx⟩ := List.map_eq_cons_iff.1 hx
    obtain ⟨y, ys, rfl, -, hy⟩ := List.map_eq_cons_iff.1 hy
    obtain ⟨first, ties⟩ := precedes_cons_iff.1 h
    have plain (a b : Datum) :
        Directed (fun a b => le a b = true) x.2 a b ↔ directed ascending a b = true := by
      rw [own]
      cases ascending <;> rfl
    exact ⟨(plain _ _).2 first, fun back => ih hx hy (ties ((plain _ _).1 back))⟩

/-- The positions of rows in the order of their keys. -/
def arrange (keys : List (List (Datum × Bool))) : List Nat :=
  (List.range keys.length).insertionSort fun i j =>
    precedes ((keys.headD []).map (·.2)) ((keys.getD i []).map (·.1))
      ((keys.getD j []).map (·.1)) = true

theorem arrange_sorted {keys : List (List (Datum × Bool))} {directions : List Bool}
    (shape : ∀ row ∈ keys, row.map (·.2) = directions) :
    (arrange keys).Pairwise fun i j =>
      KeysLe (fun a b => le a b = true) (keys.getD i []) (keys.getD j []) := by
  let before (i j : Nat) : Prop :=
    precedes ((keys.headD []).map (·.2)) ((keys.getD i []).map (·.1))
      ((keys.getD j []).map (·.1)) = true
  have : Std.Total before := ⟨fun i j => precedes_total _ _ _⟩
  have : IsTrans Nat before := ⟨fun i j k => precedes_trans⟩
  have sorted : (arrange keys).Pairwise before := List.pairwise_insertionSort before _
  refine sorted.imp_of_mem fun {i j} hi hj placed => ?_
  have bound (k : Nat) (hk : k ∈ arrange keys) : k < keys.length :=
    List.mem_range.1 ((List.perm_insertionSort _ _).mem_iff.1 hk)
  have shapeAt (k : Nat) (hk : k ∈ arrange keys) : (keys.getD k []).map (·.2) = directions := by
    rw [List.getD_eq_getElem _ _ (bound k hk)]
    exact shape _ (List.getElem_mem _)
  have shapeHead : (keys.headD []).map (·.2) = directions := by
    cases keys with
    | nil => exact absurd (bound i hi) (Nat.not_lt_zero _)
    | cons row _ => exact shape row List.mem_cons_self
  refine keysLe_of_precedes (shapeAt i hi) (shapeAt j hj) ?_
  rw [← shapeHead]
  exact placed

end Datum

def unbounded : Engine Datum where
  constant
    | .null => .null
    | .bool b => .ofTruth (some b)
    | .int i => .int i.toInt
    | .real v => .real v
    | .text s => .text s
  isTrue v := v.truth == some true
  unary
    | .not, v => .ofTruth (v.truth.map not)
    | .isNull, v => .ofTruth (some (decide (v = .null)))
    | .isNotNull, v => .ofTruth (some (decide (v ≠ .null)))
    | _, _ => .null
  binary := Datum.combine
  is a b := .ofTruth (some (decide (a = b)))
  cast
    | .text, .int i => .text (toString i)
    | .real, .int i => .real (Double.ofInt i)
    | _, v => v
  sum := Datum.total
  avg _ := .null
  count values := .int (values.filter (· ≠ .null)).length
  min := Datum.extreme Datum.le
  max := Datum.extreme fun a b => b.le a
  arrange := Datum.arrange
  ordinal n := .int n
  isTrue_and a b := by
    rw [Datum.combine, Datum.truth_ofTruth]
    exact Scalar.both_eq_true ..
  cast_null type := by cases type <;> rfl
  arrange_perm _ := List.perm_insertionSort _ _

theorem same_unbounded {a b : Datum} : unbounded.same a b = true ↔ a = b := by
  simp [Engine.same, unbounded, Datum.truth_ofTruth]

theorem unbounded_lawful : unbounded.Lawful where
  same_refl _ := same_unbounded.2 rfl
  same_symm _ _ h := same_unbounded.2 (same_unbounded.1 h).symm
  same_trans _ _ _ h h' := same_unbounded.2 ((same_unbounded.1 h).trans (same_unbounded.1 h'))
  ge_int m n := by
    have order : decide (n.toInt ≤ m.toInt) = decide (n ≤ m) := by
      rw [decide_eq_decide, Int64.le_iff_toInt_le]
    exact congrArg (fun b => Datum.ofTruth (some b)) order
  same_false_true := rfl
  same_ordinal_null _ := rfl

theorem unbounded_comparing : unbounded.Comparing where
  toLawful := unbounded_lawful
  eq_true a b := by
    have outcome : unbounded.isTrue (unbounded.binary .eq a b) = true ↔ a = b ∧ a ≠ .null := by
      change ((Datum.compared (decide (a = b)) a b).truth == some true) = true ↔ _
      unfold Datum.compared
      by_cases either : a = .null ∨ b = .null
      · rw [if_pos either]
        constructor
        · intro h
          cases h
        · rintro ⟨rfl, some⟩
          exact absurd (either.elim id id) some
      · rw [if_neg either, Datum.truth_ofTruth]
        simp [not_or.1 either]
    rw [Bool.eq_iff_iff, outcome, Bool.and_eq_true, same_unbounded, Bool.not_eq_true', ←
      Bool.not_eq_true, same_unbounded]
    rfl
  isNull_true a := by
    simp [Engine.same, unbounded, Datum.truth_ofTruth, Engine.null]
  false_not_true := rfl
  constant_not_null v some := by
    cases v with
    | null => exact absurd rfl some.1
    | _ => rfl

theorem unbounded_sorts : unbounded.Sorts fun a b => Datum.le a b = true where
  total := Datum.le_total
  trans _ _ _ := Datum.le_trans
  le_of_same a b h := by
    rw [same_unbounded.1 h]
    exact (Datum.le_total b b).elim id id
  null_le _ := rfl
  same_null_of_le a h := by
    cases a with
    | null => rfl
    | _ => cases h
  ordinal_le m n := by simp [unbounded, Datum.le]
  int_le m n := by simp [unbounded, Datum.le, Int64.le_iff_toInt_le]
  arrange_sorted _ _ shape := Datum.arrange_sorted shape

theorem unbounded_exact : unbounded.Exact Datum.toInt? where
  null := rfl
  int _ := rfl
  sum _ _ := Datum.toInt?_total

def unboundedSales : Tables Datum := fun name => (salesTables name).map fun stored => {
  names := stored.names
  rows := stored.rows.map (List.map unbounded.constant)
  distinct := stored.distinct
  wide := by
    intro row h
    obtain ⟨old, ho, rfl⟩ := List.mem_map.1 h
    rw [List.length_map, stored.wide old ho] }

end Crosstab
