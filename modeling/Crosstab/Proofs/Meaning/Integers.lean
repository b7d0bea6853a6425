import Mathlib.Data.List.Sort
import Crosstab.Proofs.Meaning.Engine

namespace Crosstab

namespace Scalar

def truth : Scalar → Option Bool
  | null => none
  | bool b => some b
  | int i => some (i != 0)
  | real _ | text _ => some false

def ofTruth : Option Bool → Scalar
  | none => null
  | some b => bool b

theorem truth_ofTruth (b : Option Bool) : (ofTruth b).truth = b := by
  cases b <;> rfl

def both : Option Bool → Option Bool → Option Bool
  | some false, _ | _, some false => some false
  | some true, some true => some true
  | _, _ => none

theorem both_eq_true (x y : Option Bool) :
    (both x y == some true) = (x == some true && y == some true) := by
  rcases x with _ | _ | _ <;> rcases y with _ | _ | _ <;> rfl

/-- A number that sorts values of different types: nulls first, texts last. -/
def sortClass : Scalar → Nat
  | null => 0
  | bool _ => 1
  | int _ => 2
  | real _ => 3
  | text _ => 4

def before : Scalar → Scalar → Bool
  | bool a, bool b => !a && b
  | int a, int b => decide (a.toInt < b.toInt)
  | text a, text b => decide (a < b)
  | a, b => decide (a.sortClass < b.sortClass)

def compared (outcome : Bool) (a b : Scalar) : Scalar :=
  if a.isNull || b.isNull then null else bool outcome

def arithmetic (op : Int64 → Int64 → Int64) : Scalar → Scalar → Scalar
  | int a, int b => int (op a b)
  | _, _ => null

def combine (op : Operation) (a b : Scalar) : Scalar :=
  match op with
  | .and => ofTruth (both a.truth b.truth)
  | .or => ofTruth ((both (a.truth.map not) (b.truth.map not)).map not)
  | .eq => compared (decide (a = b)) a b
  | .ne => compared (decide (a ≠ b)) a b
  | .lt => compared (a.before b) a b
  | .le => compared (!b.before a) a b
  | .gt => compared (b.before a) a b
  | .ge => compared (!a.before b) a b
  | .add => arithmetic (· + ·) a b
  | .sub => arithmetic (· - ·) a b
  | .mul => arithmetic (· * ·) a b
  | .div => arithmetic (· / ·) a b
  | .not | .isNull | .isNotNull => null

/-- The first of the values, by an order; null if there is none. -/
def extreme (first : Scalar → Scalar → Bool) (values : List Scalar) : Scalar :=
  values.foldl (fun best v => if v.isNull || (!best.isNull && !first v best) then best else v) null

def total (values : List Scalar) : Scalar :=
  values.foldl (fun sum v => if sum.isNull then v else if v.isNull then sum
    else arithmetic (· + ·) sum v) null

end Scalar

/-- A row with these keys stands at or before one with those. -/
def notAfter : List (Scalar × Bool) → List (Scalar × Bool) → Bool
  | (a, ascending) :: as, (b, _) :: bs =>
    if a = b then notAfter as bs else if ascending then a.before b else b.before a
  | _, _ => true

def integers : Engine Scalar where
  constant := id
  isTrue v := v.truth == some true
  unary
    | .not, v => .ofTruth (v.truth.map not)
    | .isNull, v => .bool v.isNull
    | .isNotNull, v => .bool !v.isNull
    | _, _ => .null
  binary := Scalar.combine
  is a b := .bool (decide (a = b))
  cast
    | .text, v => if v.isNull then .null else .text v.display
    | .real, .int i => .real (Double.ofInt i.toInt)
    | _, v => v
  sum := Scalar.total
  avg _ := .null
  count values := .int (Int64.ofNat (values.filter fun v => !v.isNull).length)
  min := Scalar.extreme Scalar.before
  max := Scalar.extreme fun a b => b.before a
  arrange keys := (List.range keys.length).insertionSort fun i j =>
    notAfter (keys.getD i []) (keys.getD j []) = true
  ordinal n := .int (Int64.ofNat n)
  isTrue_and a b := by
    rw [Scalar.combine, Scalar.truth_ofTruth]
    exact Scalar.both_eq_true ..
  cast_null type := by cases type <;> rfl
  arrange_perm _ := List.perm_insertionSort _ _

theorem same_integers {a b : Scalar} : integers.same a b = true ↔ a = b := by
  simp [Engine.same, integers, Scalar.truth]

theorem integers_lawful : integers.Lawful where
  same_refl _ := same_integers.2 rfl
  same_symm _ _ h := same_integers.2 (same_integers.1 h).symm
  same_trans _ _ _ h h' := same_integers.2 ((same_integers.1 h).trans (same_integers.1 h'))
  ge_int m n := by
    have order : (!decide (m.toInt < n.toInt)) = decide (n ≤ m) := by
      rw [← decide_not, decide_eq_decide, Int.not_lt, ← Int64.le_iff_toInt_le]
    exact congrArg Scalar.bool order
  same_false_true := rfl
  same_ordinal_null _ := rfl

/-- Sales, some in a region that is not known. -/
def salesTable : Relation Scalar where
  names := ["REGION", "Amount", "note"]
  rows := [[.text "north", .int 1, .null], [.null, .int 3, .text "x"],
    [.text "south", .int 2, .null], [.null, .int 3, .null], [.text "north", .int 2, .null]]
  distinct := by decide
  wide := by decide

def salesTables : Tables Scalar := fun name => if name = "sales" then some salesTable else none

end Crosstab
