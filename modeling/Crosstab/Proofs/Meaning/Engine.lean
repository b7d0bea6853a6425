import Crosstab.Operation
import Crosstab.Scalar

/-!
# Engines

What a database engine does with values: constants, operations, casts, aggregates and the order of
rows. What queries and statements mean is said for every engine, so nothing depends on how numbers
are rounded, how texts compare or where nulls are sorted.
-/

namespace Crosstab

/-- What is done with values. -/
structure Engine (V : Type) where
  constant : Scalar → V
  /-- The value counts as true; a null does not. -/
  isTrue : V → Bool
  unary : Operation → V → V
  binary : Operation → V → V → V
  /-- Equality that holds between two nulls. -/
  is : V → V → V
  cast : DataType → V → V
  sum : List V → V
  avg : List V → V
  count : List V → V
  min : List V → V
  max : List V → V
  /-- The positions of rows in the order of their sort keys; `true` is increasing order. The order
  of rows with equal keys is up to the engine. -/
  arrange : List (List (V × Bool)) → List Nat
  /-- A number of rows. -/
  ordinal : Nat → V
  isTrue_and : ∀ a b, isTrue (binary .and a b) = (isTrue a && isTrue b)
  cast_null : ∀ type, cast type (constant .null) = constant .null
  /-- Every row has one place in the order. -/
  arrange_perm : ∀ keys, (arrange keys).Perm (List.range keys.length)

def pick {α : Type} (xs : List α) (positions : List Nat) : List α := positions.filterMap (xs[·]?)

namespace Engine

variable {V : Type} (E : Engine V)

def null : V := E.constant .null

/-- The values are the same; a null is the same as a null. -/
def same (a b : V) : Bool := E.isTrue (E.is a b)

theorem isTrue_foldl_and (v : V) (rest : List V) :
    E.isTrue (rest.foldl (E.binary .and) v) = (E.isTrue v && rest.all E.isTrue) := by
  induction rest generalizing v with
  | nil => simp
  | cons w rest ih => rw [List.foldl_cons, ih, E.isTrue_and, List.all_cons, Bool.and_assoc]

/-- Being the same is an equivalence, integers are compared as integers, false is not true, and a
number of rows is a value. -/
structure Lawful (E : Engine V) : Prop where
  same_refl : ∀ a, E.same a a = true
  same_symm : ∀ a b, E.same a b = true → E.same b a = true
  same_trans : ∀ a b c, E.same a b = true → E.same b c = true → E.same a c = true
  ge_int : ∀ m n, E.binary .ge (E.constant (.int m)) (E.constant (.int n)) =
    E.constant (.bool (decide (n ≤ m)))
  same_false_true : E.same (E.constant (.bool false)) (E.constant (.bool true)) = false
  same_ordinal_null : ∀ n, E.same (E.ordinal n) E.null = false

/-- The rows are the same, value by value. -/
def sameRow : List V → List V → Bool
  | [], [] => true
  | a :: as, b :: bs => E.same a b && sameRow as bs
  | _, _ => false

def sameAt (keys : List (List V)) (i j : Nat) : Bool :=
  E.sameRow (keys.getD i []) (keys.getD j [])

/-- A position whose keys are not the same as any before. -/
def isFirst (keys : List (List V)) (i : Nat) : Bool :=
  (List.range i).all fun j => !E.sameAt keys j i

/-- One list of positions for each distinct key: the first position with that key, then the others
in order. -/
def classes (keys : List (List V)) : List (List Nat) :=
  ((List.range keys.length).filter (E.isFirst keys)).map fun i =>
    i :: (List.range keys.length).filter fun j => decide (i < j) && E.sameAt keys i j

/-- The rank of the row at a position in the order of the sort keys, from one on. -/
def rank (keys : List (List (V × Bool))) (i : Nat) : Nat := (E.arrange keys).idxOf i + 1

/-- The value of a row in the column that a name means. -/
def cell (names : List String) (row : List V) (name : String) : V :=
  match names.findIdx? fun n => decide (SameName n name) with
  | some i => row.getD i E.null
  | none => E.null

end Engine

/-- A table in a database: its columns differ as names, and every row has a value for each. -/
structure Relation (V : Type) where
  names : List String
  rows : List (List V)
  distinct : (names.map foldCase).Nodup
  wide : ∀ row ∈ rows, row.length = names.length

abbrev Tables (V : Type) := String → Option (Relation V)

end Crosstab
