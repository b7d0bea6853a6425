import Mathlib.Data.Set.Finite.List
import Mathlib.Order.Filter.AtTopBot.Basic
import Mathlib.Order.Filter.Finite
import Crosstab.Proofs.Double.Literal
import Crosstab.Proofs.Sql.Normal
import Crosstab.Proofs.Sql.Tokens

/-!
# SQL expressions are read back

The text of an expression says what the expression is, up to truth values, which are written as
integers.

* `readExpr` is the reader; what a text begins with decides which kind of expression it is;
* `Expr.Readable` are the expressions that it tells apart: a test for null ends in `IS NULL`, so
  what stands right of `IS` has to be a column;
* `readsTo_expr`: with enough fuel, the text of a readable expression is read back.
-/

namespace Crosstab

namespace Sql

/-! ## Readers -/

def BinaryOp.all : List BinaryOp :=
  [add, sub, mul, div, eq, ne, lt, le, gt, ge, is, and, or]

/-- The sign of an operation between its operands. -/
def BinaryOp.word (op : BinaryOp) : String := " " ++ op.sign ++ " "

/-- The last words of a test for null. -/
def nullText (negated : Bool) : String := if negated then " IS NOT NULL)" else " IS NULL)"

/-- The characters of function names. -/
def isWordChar (c : Char) : Bool := c.isLower || c == '_'

/-- The first of some things whose word stands at the front. -/
def readOneOf {α : Type} (word : α → String) (things : List α) (cs : List Char) :
    Option (α × List Char) :=
  things.findSome? fun a => (after (word a) cs).map fun rest => (a, rest)

def readWord (word : String) (value : Expr) (cs : List Char) : Option (Expr × List Char) :=
  (after word cs).map fun rest => (value, rest)

def readText (cs : List Char) : Option (Expr × List Char) :=
  (readQuoted '\'' cs).map fun (text, rest) => (.literal (.text text), rest)

/-- A number: an integer, or else a real. -/
def readNumber (cs : List Char) : Option (Expr × List Char) :=
  let (token, rest) := readWhile isNumeric cs
  match readInt64? token with
  | some i => some (.literal (.integer i), rest)
  | none => (Double.read? token).map fun v => (.literal (.real v), rest)

def readColumn (cs : List Char) : Option (Expr × List Char) := do
  let (first, rest) ← readQuoted '"' cs
  match after "." rest with
  | none => return (.named first, rest)
  | some rest => do
    let (name, rest) ← readQuoted '"' rest
    return (.qualified first name, rest)

section
variable (read : Reader Expr) (fuel : Nat) (cs : List Char)

def readOperation : Option (Expr × List Char) := do
  let cs ← after "(" cs
  match after "NOT " cs with
  | some rest => do
    let (operand, rest) ← read rest
    return (.not operand, ← after ")" rest)
  | none => do
    let (left, rest) ← read cs
    match readOneOf nullText [false, true] rest with
    | some (negated, rest) => return (.isNull left negated, rest)
    | none => do
      let (op, rest) ← readOneOf BinaryOp.word BinaryOp.all rest
      let (right, rest) ← read rest
      return (.binary left op right, ← after ")" rest)

def readCast : Option (Expr × List Char) := do
  let cs ← after "CAST(" cs
  let (operand, rest) ← read cs
  let rest ← after " AS " rest
  let (type, rest) ← readOneOf DataType.sqlName [.integer, .real, .text] rest
  return (.cast operand type, ← after ")" rest)

def readBranch : Option ((Expr × Expr) × List Char) := do
  let (condition, rest) ← read cs
  let rest ← after " THEN " rest
  let (value, rest) ← read rest
  return ((condition, value), rest)

def readCase : Option (Expr × List Char) := do
  let cs ← after "CASE" cs
  let (branches, rest) ← readMany " WHEN " (readBranch read) fuel cs
  let (otherwise, rest) ← readOptional " ELSE " read rest
  return (.case branches otherwise, ← after " END" rest)

def readKey : Option ((Expr × Bool) × List Char) := do
  let (e, rest) ← read cs
  let (ascending, rest) ← readOneOf (fun ascending => " " ++ directionText ascending)
    [true, false] rest
  return ((e, ascending), rest)

/-- A function of its arguments, over all rows if there is an order. -/
def readCall : Option (Expr × List Char) := do
  let (function, rest) := readWhile isWordChar cs
  let rest ← after "(" rest
  let (args, rest) ← readList read fuel rest
  let rest ← after ")" rest
  match after " OVER (ORDER BY " rest with
  | none => return (.call (String.ofList function) args, rest)
  | some rest => do
    let (keys, rest) ← readList (readKey read) fuel rest
    return (.window (String.ofList function) args keys, ← after ")" rest)

end

/-- An expression, with a bound on how deep and how long it is. -/
def readExpr : Nat → Reader Expr
  | 0, _ => none
  | fuel + 1, cs =>
    match cs.head? with
    | none => none
    | some c =>
      if c.isDigit || c == '-' then readNumber cs
      else if isWordChar c then readCall (readExpr fuel) fuel cs
      else match c with
        | '\'' => readText cs
        | '"' => readColumn cs
        | '(' => readOperation (readExpr fuel) cs
        | '*' => readWord "*" .star cs
        | 'N' => readWord "NULL" (.literal .null) cs
        | 'C' =>
          if (after "CAST(" cs).isSome then readCast (readExpr fuel) cs
          else readCase (readExpr fuel) fuel cs
        | _ => none

/-- The words that may follow an expression. -/
def exprEnds : List String :=
  [")", ", ", " AS ", " ASC", " DESC", " THEN ", " WHEN ", " ELSE ", " END", " IS NULL)",
    " IS NOT NULL)", " FROM ", " WHERE ", " GROUP BY ", " ORDER BY ", " UNION ALL "] ++
    BinaryOp.all.map BinaryOp.word

/-! ## What the readers read -/

section
variable {α : Type} {word : α → String} {things : List α} {a : α}

theorem readOneOf_append (mem : a ∈ things)
    (clash : ∀ b ∈ things, b = a ∨ Clash (word b) (word a)) (rest : List Char) :
    readOneOf word things ((word a).toList ++ rest) = some (a, rest) := by
  induction things with
  | nil => cases mem
  | cons b things ih =>
    obtain ⟨here, others⟩ := List.forall_mem_cons.1 clash
    obtain rfl | apart := here
    · simp [readOneOf, after_append]
    · have next : a ∈ things := by
        refine (List.mem_cons.1 mem).resolve_left ?_
        rintro rfl
        exact apart.1 (List.prefix_refl _)
      have front : after (word b) ((word a).toList ++ rest) = none :=
        after_eq_none apart (List.prefix_append ..)
      have := ih next others
      simpa [readOneOf, front] using this

theorem readOneOf_eq_none {cs : List Char} (h : ∀ b ∈ things, after (word b) cs = none) :
    readOneOf word things cs = none := by
  simp only [readOneOf, List.findSome?_eq_none_iff, Option.map_eq_none_iff]
  exact h

end

section
variable {read : Reader Expr} {text left right : String} {value leftValue rightValue : Expr}
  {ends : List String}

theorem readsTo_cast (operand : ReadsTo read text.toList value exprEnds) (type : DataType) :
    ReadsTo (readCast read) ("CAST(" ++ text ++ " AS " ++ type.sqlName ++ ")").toList
      (.cast value type.stored) ends := by
  intro rest _
  have first := operand _ (follows_word (w := " AS ") (by decide)
    (type.sqlName.toList ++ (")".toList ++ rest)))
  have second : readOneOf DataType.sqlName [.integer, .real, .text]
      (type.sqlName.toList ++ (")".toList ++ rest)) = some (type.stored, ")".toList ++ rest) := by
    rw [← type.sqlName_stored]
    exact readOneOf_append (by cases type <;> decide) (by cases type <;> decide) _
  simp only [String.toList_append, List.append_assoc, readCast, after_append, first, second,
    Option.bind_eq_bind, Option.bind_some]
  rfl

theorem readsTo_branch (condition : ReadsTo read left.toList leftValue exprEnds)
    (value : ReadsTo read right.toList rightValue exprEnds) (sub : ends ⊆ exprEnds) :
    ReadsTo (readBranch read) (left ++ " THEN " ++ right).toList (leftValue, rightValue) ends := by
  intro rest follows
  have first := condition _ (follows_word (w := " THEN ") (by decide) (right.toList ++ rest))
  have second := value rest (follows.mono sub)
  simp only [String.toList_append, List.append_assoc, readBranch, after_append, first, second,
    Option.bind_eq_bind, Option.bind_some]
  rfl

theorem readsTo_key (key : ReadsTo read text.toList value exprEnds) (ascending : Bool) :
    ReadsTo (readKey read) (text ++ " " ++ directionText ascending).toList (value, ascending)
      ends := by
  intro rest _
  have word : (" " ++ directionText ascending) ∈ exprEnds := by cases ascending <;> decide
  have first := key _ (follows_word word rest)
  have second : readOneOf (fun ascending => " " ++ directionText ascending) [true, false]
      ((" " ++ directionText ascending).toList ++ rest) = some (ascending, rest) :=
    readOneOf_append (by cases ascending <;> decide) (by cases ascending <;> decide) rest
  rw [String.append_assoc, String.toList_append, List.append_assoc]
  simp only [readKey, first, second, Option.bind_eq_bind, Option.bind_some]
  rfl

/-- The text does not begin as a negation does. -/
def NotNegated (text : String) : Prop := ∀ rest, after "NOT " (text.toList ++ rest) = none

theorem readsTo_not (operand : ReadsTo read text.toList value exprEnds) :
    ReadsTo (readOperation read) ("(NOT " ++ text ++ ")").toList (.not value) ends := by
  intro rest _
  have first := operand _ (follows_word (w := ")") (by decide) rest)
  rw [show ("(NOT " : String) = "(" ++ "NOT " by rfl]
  simp only [String.toList_append, List.append_assoc, readOperation, after_append, first,
    Option.bind_eq_bind, Option.bind_some]
  rfl

theorem readsTo_isNull (operand : ReadsTo read text.toList value exprEnds)
    (begins : NotNegated text) (negated : Bool) :
    ReadsTo (readOperation read) ("(" ++ text ++ nullText negated).toList (.isNull value negated)
      ends := by
  intro rest _
  have first := operand _ (follows_word (w := nullText negated) (by cases negated <;> decide) rest)
  have second : readOneOf nullText [false, true] ((nullText negated).toList ++ rest) =
      some (negated, rest) :=
    readOneOf_append (by cases negated <;> decide) (by cases negated <;> decide) rest
  simp only [String.toList_append, List.append_assoc, readOperation, after_append, begins _, first,
    second, Option.bind_eq_bind, Option.bind_some]
  rfl

/-- A sign is never taken for the words of a test for null, if a quote follows `IS`. -/
theorem readOneOf_nullText_sign {op : BinaryOp} {cs : List Char}
    (quoted : op = .is → cs.head? = some '"') :
    readOneOf nullText [false, true] (op.word.toList ++ cs) = none := by
  have apart : ∀ op ∈ BinaryOp.all, op ≠ .is → ∀ b, Clash (nullText b) op.word := by decide
  refine readOneOf_eq_none fun b _ => ?_
  by_cases is : op = .is
  · subst is
    obtain ⟨cs, rfl⟩ : ∃ more, cs = '"' :: more := by
      cases cs with
      | nil => simp at quoted
      | cons c more => exact ⟨more, by simpa using quoted rfl⟩
    have words : ∀ b, Clash (nullText b) " IS \"" := by decide
    exact after_eq_none (words b) ⟨cs, rfl⟩
  · exact after_eq_none (apart op (by cases op <;> decide) is b) (List.prefix_append ..)

theorem readsTo_binary (leftRead : ReadsTo read left.toList leftValue exprEnds)
    (rightRead : ReadsTo read right.toList rightValue exprEnds) (begins : NotNegated left)
    {op : BinaryOp} (quoted : op = .is → right.toList.head? = some '"') :
    ReadsTo (readOperation read) ("(" ++ left ++ " " ++ op.sign ++ " " ++ right ++ ")").toList
      (.binary leftValue op rightValue) ends := by
  intro rest _
  have sign : ("(" ++ left ++ " " ++ op.sign ++ " " ++ right ++ ")").toList ++ rest =
      "(".toList ++
        (left.toList ++ (op.word.toList ++ (right.toList ++ (")".toList ++ rest)))) := by
    simp only [BinaryOp.word, String.toList_append, List.append_assoc]
  have first := leftRead _ (follows_word (w := op.word) (by cases op <;> decide)
    (right.toList ++ (")".toList ++ rest)))
  have notNull : readOneOf nullText [false, true]
      (op.word.toList ++ (right.toList ++ (")".toList ++ rest))) = none :=
    readOneOf_nullText_sign fun is => by rw [List.head?_append, quoted is]; rfl
  have second : readOneOf BinaryOp.word BinaryOp.all
      (op.word.toList ++ (right.toList ++ (")".toList ++ rest))) =
        some (op, right.toList ++ (")".toList ++ rest)) :=
    readOneOf_append (by cases op <;> decide) (by cases op <;> decide) _
  have third := rightRead _ (follows_word (w := ")") (by decide) rest)
  simp only [sign, readOperation, after_append, begins _, first, notNull, second, third,
    Option.bind_eq_bind, Option.bind_some]
  rfl

end

section
variable {read : Reader Expr} {fuel : Nat} {ends : List String}

theorem toList_renderBranches (branches : List (Expr × Expr)) :
    (Expr.renderBranches branches).toList = branches.flatMap fun b =>
      " WHEN ".toList ++ (b.1.render ++ " THEN " ++ b.2.render).toList := by
  induction branches with
  | nil => rfl
  | cons b branches ih =>
    simp only [Expr.renderBranches, String.toList_append, ih, List.flatMap_cons, List.append_assoc]

theorem toList_renderElse (otherwise : Option Expr) : (Expr.renderElse otherwise).toList =
    otherwise.elim [] fun e => " ELSE ".toList ++ e.render.toList := by
  cases otherwise with
  | none => rfl
  | some e => simp only [Expr.renderElse, String.toList_append, Option.elim_some]

/-- The expressions are read back, and are fewer than the fuel. -/
structure AllRead (read : Reader Expr) (fuel : Nat) (es : List Expr) : Prop where
  fewer : es.length < fuel
  each : ∀ e ∈ es, ReadsTo read e.render.toList e.normal exprEnds

theorem readsTo_case {branches : List (Expr × Expr)} {otherwise : Option Expr}
    (conditions : AllRead read fuel (branches.map (·.1)))
    (values : AllRead read fuel (branches.map (·.2)))
    (last : AllRead read fuel otherwise.toList) :
    ReadsTo (readCase read fuel) (Expr.case branches otherwise).render.toList
      (Expr.case branches otherwise).normal ends := by
  intro rest _
  have elseText := toList_renderElse otherwise
  have ended : Follows [" END"] (" END".toList ++ rest) := follows_word (by decide) rest
  have readElse : ReadsTo (readOptional " ELSE " read) _ _ [" END"] :=
    readsTo_optional (by decide) (by decide) otherwise fun e he =>
      (last.each e (Option.mem_toList.2 he)).mono (by decide)
  have readBranches : ReadsTo (readMany " WHEN " (readBranch read) fuel) _ _ [" ELSE ", " END"] :=
    readsTo_many [" WHEN ", " ELSE ", " END"] (by decide) (by decide) (by decide) (by decide)
      (fun b hb => readsTo_branch (conditions.each _ (List.mem_map_of_mem hb))
        (values.each _ (List.mem_map_of_mem hb)) (by decide))
      (by simpa using conditions.fewer)
  have first := readBranches _ (follows_optional " ELSE " [" END"] (by decide) (by decide) ended
    otherwise fun e => e.render.toList)
  have second := readElse _ ended
  simp only [Expr.render, String.toList_append, toList_renderBranches, elseText, List.append_assoc,
    readCase, after_append] at first second ⊢
  simp only [first, second, after_append, Option.bind_eq_bind, Option.bind_some, Expr.normal,
    Expr.normalBranches_eq, Expr.normalElse_eq]
  rfl

end

/-- The function names that are told apart from what follows them. -/
def IsWord (function : String) : Prop :=
  function.toList ≠ [] ∧ function.toList.all isWordChar = true

instance (function : String) : Decidable (IsWord function) :=
  inferInstanceAs (Decidable (_ ∧ _))

section
variable {read : Reader Expr} {fuel : Nat} {last : List String}
  (clash : ∀ w ∈ last, Clash ", " w) (refused : ∀ rest, Follows last rest → read rest = none)
include clash refused

theorem readsTo_exprs (sub : last ⊆ exprEnds) {es : List Expr} (h : AllRead read fuel es) :
    ReadsTo (readList read fuel) (commaList (Expr.renderAll es)).toList (Expr.normalAll es)
      last := by
  rw [Expr.renderAll_eq, Expr.normalAll_eq]
  exact readsTo_list exprEnds clash sub (by decide) refused h.each h.fewer

theorem readsTo_keys {keys : List (Expr × Bool)} (h : AllRead read fuel (keys.map (·.1))) :
    ReadsTo (readList (readKey read) fuel) (commaList (Expr.renderKeys keys)).toList
      (Expr.normalKeys keys) last := by
  have none (rest : List Char) (follows : Follows last rest) : readKey read rest = none := by
    simp [readKey, refused rest follows]
  rw [Expr.renderKeys_eq, Expr.normalKeys_eq]
  exact readsTo_list (", " :: last) clash (List.subset_cons_self ..) (List.mem_cons_self ..) none
    (fun k hk => readsTo_key (h.each _ (List.mem_map_of_mem hk)) k.2) (by simpa using h.fewer)

end

section
variable {read : Reader Expr} {fuel : Nat} {function : String} {args : List Expr}
  (word : IsWord function) (refused : ∀ rest, Follows [")"] rest → read rest = none)
  (each : AllRead read fuel args)
include word refused each

omit refused each in
theorem readWhile_word (rest : List Char) :
    readWhile isWordChar (function.toList ++ ("(".toList ++ rest)) =
      (function.toList, "(".toList ++ rest) :=
  readWhile_append word.2 (by simp [isWordChar])

theorem readsTo_call : ReadsTo (readCall read fuel) (Expr.call function args).render.toList
    (Expr.call function args).normal exprEnds := by
  intro rest follows
  have first := readsTo_exprs (by decide) refused (by decide) each _
    (follows_word (w := ")") (by decide) rest)
  have single : after " OVER (ORDER BY " rest = none :=
    after_of_follows follows (by decide) (by decide)
  simp only [Expr.render, String.toList_append, List.append_assoc, readCall, readWhile_word word,
    after_append, first, single, Option.bind_eq_bind, Option.bind_some, String.ofList_toList,
    Expr.normal]
  rfl

theorem readsTo_window {keys : List (Expr × Bool)} (eachKey : AllRead read fuel (keys.map (·.1)))
    {ends : List String} :
    ReadsTo (readCall read fuel) (Expr.window function args keys).render.toList
      (Expr.window function args keys).normal ends := by
  intro rest _
  have words : (") OVER (ORDER BY " : String) = ")" ++ " OVER (ORDER BY " := rfl
  have second := readsTo_keys (by decide) refused eachKey _
    (follows_word (w := ")") (by decide) rest)
  have first := readsTo_exprs (by decide) refused (by decide) each _
    (follows_word (w := ")") (by decide) (" OVER (ORDER BY ".toList ++
      ((commaList (Expr.renderKeys keys)).toList ++ (")".toList ++ rest))))
  simp only [Expr.render, words, String.toList_append, List.append_assoc, readCall,
    readWhile_word word, after_append, first, second, Option.bind_eq_bind, Option.bind_some,
    String.ofList_toList, Expr.normal]
  rfl

end

theorem readsTo_column (owner : Option String) (name : String) :
    ReadsTo readColumn (Expr.column owner name).render.toList (.column owner name) exprEnds := by
  intro rest follows
  have quote := head?_of_follows (p := (· != '"')) follows (by decide)
  cases owner with
  | none =>
    have single : after "." rest = none := after_of_follows follows (by decide) (by decide)
    simp only [Expr.render, quotedName, readColumn, readQuoted_quoted quote, single,
      Option.bind_eq_bind, Option.bind_some]
    rfl
  | some owner =>
    have read : ReadsTo (readQuoted '"') (quoted '"' owner).toList owner ["."] :=
      readsTo_quoted _ owner (by decide)
    have first := read _ (follows_word (w := ".") (by decide) ((quoted '"' name).toList ++ rest))
    simp only [Expr.render, quotedName, String.toList_append, List.append_assoc, readColumn, first,
      after_append, readQuoted_quoted quote, Option.bind_eq_bind, Option.bind_some]
    rfl

theorem readsTo_text (text : String) :
    ReadsTo readText (quotedText text).toList (.literal (.text text)) exprEnds := by
  intro rest follows
  have quoted : ReadsTo (readQuoted '\'') (quotedText text).toList text exprEnds :=
    readsTo_quoted _ text (by decide)
  rw [readText, quoted rest follows]
  rfl

theorem readsTo_word (word : String) (value : Expr) :
    ReadsTo (readWord word value) word.toList value exprEnds := by
  intro rest _
  rw [readWord, after_append]
  rfl

/-- Readable constants are those that a database can hold. -/
def Literal.IsFinite : Literal → Prop
  | .real v => v.isFinite = true
  | _ => True

theorem readsTo_integer (i : Int64) :
    ReadsTo readNumber (toString i.toInt).toList (.literal (.integer i)) exprEnds := by
  intro rest follows
  have stop := head?_of_follows (p := fun c => !isNumeric c) follows (by decide)
  have token := readWhile_append (all_isNumeric_toString i.toInt) stop
  simp only [readNumber, token, readInt64?_toString]

theorem readsTo_real {v : Double} (finite : v.isFinite = true) :
    ReadsTo readNumber v.literal.toList (.literal (.real v)) exprEnds := by
  intro rest follows
  have stop := head?_of_follows (p := fun c => !isNumeric c) follows (by decide)
  have token := readWhile_append (Double.all_isNumeric_literal finite) stop
  simp only [readNumber, token, Double.readInt64?_literal finite, Double.read?_literal finite,
    Option.map_some]

/-! ## Readable expressions -/

namespace Expr

/-- An expression whose text says what it is, up to truth values. -/
inductive Readable : Expr → Prop where
  | literal {value : Literal} (finite : value.IsFinite) : Readable (.literal value)
  | column (owner : Option String) (name : String) : Readable (.column owner name)
  | binary {left right : Expr} {op : BinaryOp} (l : Readable left) (r : Readable right)
      (qualified : op = .is → ∃ owner name, right = .qualified owner name) :
      Readable (.binary left op right)
  | not {operand : Expr} (e : Readable operand) : Readable (.not operand)
  | call {function : String} {args : List Expr} (word : IsWord function)
      (each : ∀ e ∈ args, Readable e) : Readable (.call function args)
  | window {function : String} {args : List Expr} {keys : List (Expr × Bool)}
      (word : IsWord function) (each : ∀ e ∈ args, Readable e)
      (eachKey : ∀ k ∈ keys, Readable k.1) : Readable (.window function args keys)
  | cast {operand : Expr} (e : Readable operand) (type : DataType) : Readable (.cast operand type)
  | case {branches : List (Expr × Expr)} {otherwise : Option Expr}
      (conditions : ∀ b ∈ branches, Readable b.1) (values : ∀ b ∈ branches, Readable b.2)
      (last : ∀ e ∈ otherwise, Readable e) : Readable (.case branches otherwise)
  | isNull {operand : Expr} (e : Readable operand) (negated : Bool) :
      Readable (.isNull operand negated)
  | star : Readable .star

end Expr

/-- Nothing is read where a list ends. -/
theorem readExpr_eq_none (fuel : Nat) {rest : List Char} {ends : List String}
    (follows : Follows ends rest) (each : ∀ w ∈ ends, w.toList.head?.any
      (fun c => c == ')' || c == ' ') = true) : readExpr fuel rest = none := by
  have first := head?_of_follows follows each
  cases fuel with
  | zero => rfl
  | succ fuel =>
    cases rest with
    | nil => rfl
    | cons c rest =>
      obtain rfl | rfl : c = ')' ∨ c = ' ' := by simpa using first c rfl
      · rfl
      · rfl

/-! The front of a text says what kind of expression it is. -/

section
variable {fuel : Nat} (more : List Char)

theorem readExpr_number {text : List Char}
    (number : ∃ c rest, text = c :: rest ∧ (c.isDigit || c == '-') = true) :
    readExpr (fuel + 1) (text ++ more) = readNumber (text ++ more) := by
  obtain ⟨c, rest, rfl, digit⟩ := number
  simp only [readExpr, List.cons_append, List.head?_cons, digit, if_true]

theorem readExpr_function {function : String} (word : IsWord function) :
    readExpr (fuel + 1) (function.toList ++ more) =
      readCall (readExpr fuel) fuel (function.toList ++ more) := by
  obtain ⟨c, rest, text⟩ := List.exists_cons_of_ne_nil word.1
  have letter : isWordChar c = true := List.all_eq_true.1 word.2 c (by simp [text])
  have digit : (c.isDigit || c == '-') = false := by
    rw [Bool.or_eq_false_iff]
    constructor
    · by_contra digit
      obtain ⟨-, most⟩ : _ ∧ c.val ≤ '9'.val := by simpa [Char.isDigit] using digit
      obtain lower | rfl : c.isLower = true ∨ c = '_' := by simpa [isWordChar] using letter
      · have least : 'a'.val ≤ c.val := of_decide_eq_true (Bool.and_eq_true_iff.1 lower).1
        exact absurd (UInt32.le_trans least most) (by decide)
      · exact absurd most (by decide)
    · by_contra minus
      obtain rfl : c = '-' := by simpa using minus
      exact absurd letter (by decide)
  simp only [readExpr, text, List.cons_append, List.head?_cons, digit, letter, if_true]
  rfl

theorem readExpr_operation :
    readExpr (fuel + 1) (['('] ++ more) = readOperation (readExpr fuel) (['('] ++ more) := rfl

theorem readExpr_text :
    readExpr (fuel + 1) (['\''] ++ more) = readText (['\''] ++ more) := rfl

theorem readExpr_column :
    readExpr (fuel + 1) (['"'] ++ more) = readColumn (['"'] ++ more) := rfl

theorem readExpr_cast : readExpr (fuel + 1) ("CAST(".toList ++ more) =
    readCast (readExpr fuel) ("CAST(".toList ++ more) := by
  have word : (after "CAST(" ("CAST(".toList ++ more)).isSome = true := by rw [after_append]; rfl
  exact if_pos (e := readCase (readExpr fuel) fuel ("CAST(".toList ++ more)) word

theorem readExpr_case : readExpr (fuel + 1) ("CASE".toList ++ more) =
    readCase (readExpr fuel) fuel ("CASE".toList ++ more) := by
  have word : ¬ (after "CAST(" ("CASE".toList ++ more)).isSome = true := by
    rw [after_eq_none (by decide) (List.prefix_append ..)]
    decide
  exact if_neg (t := readCast (readExpr fuel) ("CASE".toList ++ more)) word

end

theorem notNegated_of_front {text : String} {front : List Char} (begins : front <+: text.toList)
    (other : front.head?.any (· != 'N') = true) : NotNegated text := by
  intro rest
  by_contra read
  obtain ⟨more, hm⟩ := Option.ne_none_iff_exists'.1 read
  obtain ⟨word, hw⟩ := prefix_of_after hm
  obtain ⟨tail, ht⟩ := begins
  cases front with
  | nil => cases other
  | cons c front =>
    rw [← ht] at hw
    obtain rfl : 'N' = c := (List.cons.inj hw).1
    cases other

theorem isPrefix_toList_append (word text : String) : word.toList <+: (word ++ text).toList := by
  rw [String.toList_append]
  exact List.prefix_append ..

theorem isPrefix_quoted (quote : Char) (text : String) :
    [quote] <+: (quoted quote text).toList := by
  rw [quoted, String.toList_ofList]
  exact ⟨_, rfl⟩

namespace Expr

/-- What an expression's text begins with. -/
def lead : Expr → List Char
  | literal (.text _) => ['\'']
  | literal value => value.render.toList
  | column .. => ['"']
  | binary .. | not .. | isNull .. => ['(']
  | call function _ | window function .. => function.toList
  | cast .. => "CAST(".toList
  | case .. => "CASE".toList
  | star => ['*']

theorem lead_isPrefix (e : Expr) : e.lead <+: e.render.toList := by
  have parenthesis (text : String) : ['('] <+: ("(" ++ text).toList :=
    isPrefix_toList_append "(" text
  cases e with
  | literal value =>
    rw [render]
    cases value with
    | text s => exact isPrefix_quoted '\'' s
    | _ => exact List.prefix_refl _
  | column owner name =>
    cases owner with
    | none => rw [render]; exact isPrefix_quoted '"' name
    | some owner =>
      rw [render, String.append_assoc]
      exact (isPrefix_quoted '"' owner).trans (isPrefix_toList_append ..)
  | not operand =>
    rw [render, show ("(NOT " : String) = "(" ++ "NOT " by rfl, String.append_assoc,
      String.append_assoc]
    exact parenthesis _
  | binary | isNull =>
    simp only [render, String.append_assoc]
    exact parenthesis _
  | star => exact List.prefix_refl _
  | _ =>
    simp only [render, String.append_assoc]
    exact isPrefix_toList_append ..

/-- The first character of a readable expression's text, by the kind of the expression. -/
theorem head_lead {e : Expr} (h : e.Readable) (proper : e ≠ .literal .null) :
    e.lead.head?.any (· != 'N') = true := by
  have number {c : Char} (digit : (c.isDigit || c == '-') = true) : (c != 'N') = true := by
    by_contra same
    obtain rfl : c = 'N' := by simpa using same
    cases digit
  have function {name : String} (word : IsWord name) : name.toList.head?.any (· != 'N') = true := by
    obtain ⟨c, rest, text⟩ := List.exists_cons_of_ne_nil word.1
    have letter : isWordChar c = true := List.all_eq_true.1 word.2 c (by simp [text])
    rw [text, List.head?_cons, Option.any_some]
    by_contra same
    obtain rfl : c = 'N' := by simpa using same
    cases letter
  cases h with
  | @literal value finite =>
    cases value with
    | integer i =>
      obtain ⟨c, rest, text, digit⟩ := head_toString i.toInt
      change (toString i.toInt).toList.head?.any _ = true
      rw [text]
      exact number digit
    | real v =>
      obtain ⟨c, rest, text, digit⟩ := Double.head_literal finite
      change v.literal.toList.head?.any _ = true
      rw [text]
      exact number digit
    | text s => rfl
    | boolean b => cases b <;> decide
    | null => exact absurd rfl proper
  | call word | window word => exact function word
  | _ => rfl

end Expr

theorem notNegated_of_readable {e : Expr} (h : e.Readable) : NotNegated e.render := by
  by_cases null : e = .literal .null
  · subst null
    exact fun rest => after_eq_none (by decide) (List.prefix_append ..)
  · exact notNegated_of_front e.lead_isPrefix (Expr.head_lead h null)

/-- What an expression's text begins with decides which reader has to read it. -/
theorem readsTo_lead {fuel : Nat} {e value : Expr} {read : Reader Expr} {ends : List String}
    (kind : ∀ more, readExpr (fuel + 1) (e.lead ++ more) = read (e.lead ++ more))
    (h : ReadsTo read e.render.toList value ends) :
    ReadsTo (readExpr (fuel + 1)) e.render.toList value ends := by
  obtain ⟨more, text⟩ := e.lead_isPrefix
  intro rest follows
  rw [← h rest follows, ← text, List.append_assoc]
  exact kind _

theorem readsTo_literal {value : Literal} (finite : value.IsFinite) (fuel : Nat) :
    ReadsTo (readExpr (fuel + 1)) (Expr.literal value).render.toList (.literal value.normal)
      exprEnds := by
  have integer (i : Int64) : ReadsTo (readExpr (fuel + 1))
      (Expr.literal (.integer i)).render.toList (.literal (.integer i)) exprEnds :=
    readsTo_lead (fun more => readExpr_number more (head_toString i.toInt)) (readsTo_integer i)
  cases value with
  | integer i => exact integer i
  | boolean b => cases b with
    | true => exact integer 1
    | false => exact integer 0
  | real v =>
    exact readsTo_lead (fun more => readExpr_number more (Double.head_literal finite))
      (readsTo_real finite)
  | text s => exact readsTo_lead readExpr_text (readsTo_text s)
  | null => exact readsTo_lead (fun _ => rfl) (readsTo_word "NULL" _)

open Filter

theorem eventually_succ {p : Nat → Prop} (h : ∀ᶠ n in atTop, p (n + 1)) : ∀ᶠ n in atTop, p n := by
  obtain ⟨n, hn⟩ := eventually_atTop.1 h
  refine eventually_atTop.2 ⟨n + 1, fun m hm => ?_⟩
  obtain ⟨k, rfl⟩ : ∃ k, m = k + 1 := ⟨m - 1, by omega⟩
  exact hn k (by omega)

/-- If there is enough fuel for each of the expressions, then there is for all of them. -/
theorem eventually_allRead {es : List Expr}
    (h : ∀ e ∈ es, ∀ᶠ fuel in atTop,
      ReadsTo (readExpr fuel) e.render.toList e.normal exprEnds) :
    ∀ᶠ fuel in atTop, AllRead (readExpr fuel) fuel es := by
  filter_upwards [eventually_gt_atTop es.length, (eventually_all_finite es.finite_toSet).2 h]
    with fuel fewer each
  exact ⟨fewer, each⟩

/-- The text of a readable expression is read back, with enough fuel. -/
theorem readsTo_expr {e : Expr} (h : e.Readable) :
    ∀ᶠ fuel in atTop, ReadsTo (readExpr fuel) e.render.toList e.normal exprEnds := by
  have refused (fuel : Nat) (rest : List Char) (follows : Follows [")"] rest) :
      readExpr fuel rest = none := readExpr_eq_none fuel follows (by decide)
  induction h with
  | literal finite => exact eventually_succ (.of_forall (readsTo_literal finite))
  | column owner name =>
    exact eventually_succ (.of_forall fun _ => readsTo_lead readExpr_column
      (readsTo_column owner name))
  | star => exact eventually_succ (.of_forall fun _ => readsTo_lead (fun _ => rfl)
      (readsTo_word "*" _))
  | binary l r qualified ihl ihr =>
    refine eventually_succ ?_
    filter_upwards [ihl, ihr] with fuel left right
    refine readsTo_lead readExpr_operation
      (readsTo_binary left right (notNegated_of_readable l) fun is => ?_)
    obtain ⟨owner, name, rfl⟩ := qualified is
    obtain ⟨more, text⟩ := (Expr.qualified owner name).lead_isPrefix
    rw [← text]
    rfl
  | not _ ih =>
    refine eventually_succ ?_
    filter_upwards [ih] with fuel operand
    exact readsTo_lead readExpr_operation (readsTo_not operand)
  | isNull e negated ih =>
    refine eventually_succ ?_
    filter_upwards [ih] with fuel operand
    exact readsTo_lead readExpr_operation
      (readsTo_isNull operand (notNegated_of_readable e) negated)
  | cast _ type ih =>
    refine eventually_succ ?_
    filter_upwards [ih] with fuel operand
    exact readsTo_lead readExpr_cast (readsTo_cast operand type)
  | call word _ ih =>
    refine eventually_succ ?_
    filter_upwards [eventually_allRead ih] with fuel args
    exact readsTo_lead (fun more => readExpr_function more word)
      (readsTo_call word (refused fuel) args)
  | window word _ _ ih ihKeys =>
    refine eventually_succ ?_
    filter_upwards [eventually_allRead ih, eventually_allRead (List.forall_mem_map.2 ihKeys)]
      with fuel args keys
    exact readsTo_lead (fun more => readExpr_function more word)
      (readsTo_window word (refused fuel) args keys)
  | case _ _ _ ihConditions ihValues ihLast =>
    refine eventually_succ ?_
    have last := eventually_allRead fun e he => ihLast e (Option.mem_toList.1 he)
    filter_upwards [eventually_allRead (List.forall_mem_map.2 ihConditions),
      eventually_allRead (List.forall_mem_map.2 ihValues), last] with fuel conditions values last
    exact readsTo_lead readExpr_case (readsTo_case conditions values last)

end Sql

end Crosstab
