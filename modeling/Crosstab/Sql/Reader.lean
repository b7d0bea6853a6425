/-!
# Readers of SQL texts

A reader takes something off the front of a text. Lists and clauses are read with the words that
stand around them.
-/

namespace Crosstab.Sql

/-- What reads something at the front of a text, and gives what follows. -/
abbrev Reader (α : Type) := List Char → Option (α × List Char)

/-- What follows a word at the front of a text, if it stands there. -/
def after (word : String) (cs : List Char) : Option (List Char) := word.toList.isPrefixOf? cs

/-- The longest front of which each character has a property. -/
def readWhile (p : Char → Bool) (cs : List Char) : List Char × List Char :=
  (cs.takeWhile p, cs.dropWhile p)

/-- The text up to the next quote that is not doubled. -/
def readDoubled (quote : Char) : Reader (List Char)
  | [] => none
  | c :: rest =>
    if c = quote then
      match rest with
      | [] => some ([], [])
      | d :: more =>
        if d = quote then (readDoubled quote more).map fun (text, rest) => (quote :: text, rest)
        else some ([], d :: more)
    else (readDoubled quote rest).map fun (text, rest) => (c :: text, rest)

def readQuoted (quote : Char) : Reader String
  | [] => none
  | c :: rest =>
    if c = quote then (readDoubled quote rest).map fun (text, rest) => (String.ofList text, rest)
    else none

section
variable {α : Type}

/-- What a word introduces, if it stands there. -/
def readOptional (word : String) (read : Reader α) (cs : List Char) :
    Option (Option α × List Char) :=
  match after word cs with
  | none => some (none, cs)
  | some rest => (read rest).map fun (a, rest) => (some a, rest)

/-- What follows a separator, again and again; at most `fuel` times. -/
def readMany (separator : String) (item : Reader α) : Nat → Reader (List α)
  | 0, _ => none
  | fuel + 1, cs =>
    match after separator cs with
    | none => some ([], cs)
    | some rest => do
      let (a, rest) ← item rest
      let (as, rest) ← readMany separator item fuel rest
      return (a :: as, rest)

/-- A list with commas, of at most `fuel` members; nothing where no member stands. -/
def readList (item : Reader α) (fuel : Nat) (cs : List Char) : Option (List α × List Char) :=
  match item cs with
  | none => some ([], cs)
  | some (a, rest) => (readMany ", " item fuel rest).map fun (as, rest) => (a :: as, rest)

end

end Crosstab.Sql
