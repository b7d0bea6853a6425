namespace Crosstab.Text

/-- The characters with the White_Space property. -/
def isBlank (c : Char) : Bool :=
  let n := c.toNat
  (9 ≤ n && n ≤ 13) || n == 0x20 || n == 0x85 || n == 0xA0 || n == 0x1680 ||
    (0x2000 ≤ n && n ≤ 0x200A) || n == 0x2028 || n == 0x2029 || n == 0x202F || n == 0x205F ||
    n == 0x3000

/-- Blank characters at the end are dropped. -/
def trimEnd (cs : List Char) : List Char := (cs.reverse.dropWhile isBlank).reverse

/-- Blank characters at both ends are dropped. -/
def trim (cs : List Char) : List Char := trimEnd (cs.dropWhile isBlank)

def trimmed (s : String) : String := String.ofList (trim s.toList)

def isBlankText (s : String) : Bool := s.toList.all isBlank

/-- The lines that a line feed ends, without it, and what follows the last line feed. -/
def cutAtFeeds : List Char → List (List Char) × List Char
  | [] => ([], [])
  | c :: rest =>
    let (lines, last) := cutAtFeeds rest
    if c = '\n' then ([] :: lines, last)
    else match lines with
      | [] => ([], c :: last)
      | line :: more => ((c :: line) :: more, last)

/-- One carriage return at the end is dropped. -/
def dropReturn (line : List Char) : List Char :=
  if line.getLast? = some '\r' then line.dropLast else line

/-- The lines of a text. A carriage return counts as part of the line end only before a line feed;
what follows the last line feed is a line unless it is empty. -/
def linesOf (cs : List Char) : List (List Char) :=
  let (lines, last) := cutAtFeeds cs
  lines.map dropReturn ++ if last = [] then [] else [last]

end Crosstab.Text
