import Mathlib.Data.List.Forall2
import Crosstab.Delimited
import Crosstab.Sql.Printer

/-!
# The grammar of delimited texts

What the lines of a text and the fields of a line are, without a reader. A quoted part of a field
stands between quotes, with each quote in it written twice; the last field of a line may leave its
quote open.
-/

namespace Crosstab.Delimited

/-- A text and its lines. What follows the last line feed is a line unless it is empty. -/
inductive Lines : List Char → List (List Char) → Prop
  | nil : Lines [] []
  | last {line : List Char} (nonempty : line ≠ []) (noFeed : '\n' ∉ line) : Lines line [line]
  | feed {line rest : List Char} {lines : List (List Char)} (noFeed : '\n' ∉ line)
      (noReturn : line.getLast? ≠ some '\r') (more : Lines rest lines) :
      Lines (line ++ '\n' :: rest) (line :: lines)
  | returnFeed {line rest : List Char} {lines : List (List Char)} (noFeed : '\n' ∉ line)
      (more : Lines rest lines) : Lines (line ++ '\r' :: '\n' :: rest) (line :: lines)

/-- The characters that stand for a field, and the field. The quote that closes a quoted part is not
followed by another. -/
inductive FieldText (delimiter : Char) : (last : Bool) → List Char → List Char → Prop
  | nil {last : Bool} : FieldText delimiter last [] []
  | plain {last : Bool} {c : Char} {cs field : List Char} (notQuote : c ≠ '"')
      (notDelimiter : c ≠ delimiter) (more : FieldText delimiter last cs field) :
      FieldText delimiter last (c :: cs) (c :: field)
  | quoted {last : Bool} {cs field : List Char} (part : List Char) (closed : cs.head? ≠ some '"')
      (more : FieldText delimiter last cs field) :
      FieldText delimiter last ('"' :: (Sql.doubled '"' part ++ '"' :: cs)) (part ++ field)
  | unclosed (part : List Char) : FieldText delimiter true ('"' :: Sql.doubled '"' part) part

/-- A line and its fields. A quote never delimits. -/
inductive Splits (delimiter : Char) : List Char → List (List Char) → Prop
  | last {line field : List Char} (here : FieldText delimiter true line field) :
      Splits delimiter line [field]
  | cons {cs field rest : List Char} {fields : List (List Char)} (notQuote : delimiter ≠ '"')
      (here : FieldText delimiter false cs field) (more : Splits delimiter rest fields) :
      Splits delimiter (cs ++ delimiter :: rest) (field :: fields)

/-- The lines below the header that are not blank. -/
def dataLines (format : Format) (lines : List (List Char)) : List (List Char) :=
  (if format.hasHeader then lines.tail else lines).filter fun line =>
    line.any fun c => !Text.isBlank c

/-- The rows of fields that a text holds, one for each of its data lines. -/
def RawRows (format : Format) (text : String) (rows : List (List String)) : Prop :=
  ∃ lines, Lines text.toList lines ∧
    List.Forall₂ (fun line row => Splits format.delimiter line (row.map String.toList))
      (dataLines format lines) rows

/-! ## Lines -/

theorem cutAtFeeds_last {line : List Char} (noFeed : '\n' ∉ line) :
    Text.cutAtFeeds line = ([], line) := by
  induction line with
  | nil => rfl
  | cons c line ih =>
    rw [List.mem_cons, not_or] at noFeed
    rw [Text.cutAtFeeds, ih noFeed.2]
    simp [Ne.symm noFeed.1]

theorem cutAtFeeds_append {line : List Char} (noFeed : '\n' ∉ line) (rest : List Char) :
    Text.cutAtFeeds (line ++ '\n' :: rest) =
      (line :: (Text.cutAtFeeds rest).1, (Text.cutAtFeeds rest).2) := by
  induction line with
  | nil => simp [Text.cutAtFeeds]
  | cons c line ih =>
    rw [List.mem_cons, not_or] at noFeed
    rw [List.cons_append, Text.cutAtFeeds, ih noFeed.2]
    simp [Ne.symm noFeed.1]

theorem linesOf_append {line : List Char} (noFeed : '\n' ∉ line) (rest : List Char) :
    Text.linesOf (line ++ '\n' :: rest) = Text.dropReturn line :: Text.linesOf rest := by
  simp [Text.linesOf, cutAtFeeds_append noFeed]

theorem linesOf_eq {cs : List Char} {lines : List (List Char)} (h : Lines cs lines) :
    Text.linesOf cs = lines := by
  induction h with
  | nil => rfl
  | last nonempty noFeed => simp [Text.linesOf, cutAtFeeds_last noFeed, nonempty]
  | feed noFeed noReturn _ ih =>
    rw [linesOf_append noFeed, Text.dropReturn, if_neg noReturn, ih]
  | @returnFeed line rest _ noFeed _ ih =>
    have noFeed : '\n' ∉ line ++ ['\r'] := by simp [noFeed]
    have text : line ++ '\r' :: '\n' :: rest = (line ++ ['\r']) ++ '\n' :: rest := by simp
    rw [text, linesOf_append noFeed, Text.dropReturn, if_pos List.getLast?_concat, ih,
      List.dropLast_concat]

theorem exists_lines (cs : List Char) : ∃ lines, Lines cs lines := by
  induction len : cs.length using Nat.strongRecOn generalizing cs with
  | _ n shorter =>
    by_cases feed : '\n' ∈ cs
    · -- the first line is what stands before the first feed, less a return at its end
      obtain ⟨line, rest, rfl, noFeed⟩ := List.eq_append_cons_of_mem feed
      obtain ⟨lines, more⟩ := shorter rest.length (by simp at len; omega) rest rfl
      by_cases ends : line.getLast? = some '\r'
      · obtain ⟨front, rfl⟩ := List.getLast?_eq_some_iff.1 ends
        rw [List.append_assoc]
        exact ⟨_, .returnFeed (fun h => noFeed (List.mem_append_left _ h)) more⟩
      · exact ⟨_, .feed noFeed ends more⟩
    · cases cs with
      | nil => exact ⟨_, .nil⟩
      | cons c cs => exact ⟨_, .last (List.cons_ne_nil c cs) feed⟩

/-- The reader finds the lines of a text. -/
theorem lines_iff {cs : List Char} {lines : List (List Char)} :
    Lines cs lines ↔ lines = Text.linesOf cs := by
  constructor
  · exact fun h => (linesOf_eq h).symm
  · rintro rfl
    obtain ⟨lines, h⟩ := exists_lines cs
    rwa [linesOf_eq h]

/-! ## Fields -/

section
variable {delimiter : Char}

theorem splitFields_open (rest : List Char) :
    splitFields delimiter false ('"' :: rest) = splitFields delimiter true rest := by
  simp [splitFields]

theorem splitFields_close {rest : List Char} (closed : rest.head? ≠ some '"') :
    splitFields delimiter true ('"' :: rest) = splitFields delimiter false rest := by
  cases rest with
  | nil => rfl
  | cons c rest =>
    have other : c ≠ '"' := by simpa using closed
    simp [splitFields, other]

/-- A quoted part is read as far as it is written, whatever is in it. -/
theorem splitFields_doubled (part rest : List Char) :
    splitFields delimiter true (Sql.doubled '"' part ++ rest) =
      (part ++ (splitFields delimiter true rest).1, (splitFields delimiter true rest).2) := by
  induction part with
  | nil => rfl
  | cons c part ih =>
    by_cases quote : c = '"'
    · subst quote
      simp only [Sql.doubled, if_true, List.cons_append, splitFields, ih]
    · simp only [Sql.doubled, if_neg quote, List.cons_append]
      rw [splitFields, if_neg quote, ih]
      · simp
      · exact fun _ _ same => absurd same quote

theorem splitFields_plain {c : Char} (notQuote : c ≠ '"') (rest : List Char) :
    splitFields delimiter false (c :: rest) =
      if c = delimiter then
        ([], (splitFields delimiter false rest).1 :: (splitFields delimiter false rest).2)
      else (c :: (splitFields delimiter false rest).1, (splitFields delimiter false rest).2) := by
  rw [splitFields, if_neg notQuote]
  · simp
  · exact nofun

/-- A field is read up to the delimiter after it, or to the end of the line. -/
theorem splitFields_fieldText {last : Bool} {cs field rest : List Char}
    (h : FieldText delimiter last cs field)
    (next : rest = [] ∨ last = false ∧ rest.head? = some delimiter ∧ delimiter ≠ '"')
    (ends : (splitFields delimiter false rest).1 = []) :
    splitFields delimiter false (cs ++ rest) = (field, (splitFields delimiter false rest).2) := by
  induction h with
  | nil => exact Prod.ext ends rfl
  | plain notQuote notDelimiter _ ih =>
    rw [List.cons_append, splitFields_plain notQuote, if_neg notDelimiter, ih next]
  | @quoted last cs field part closed more ih =>
    have stop : (cs ++ rest).head? ≠ some '"' := by
      cases cs with
      | nil =>
        obtain rfl | ⟨-, first, notQuote⟩ := next
        · exact nofun
        · rw [List.nil_append, first]
          simpa using notQuote
      | cons => exact closed
    rw [List.cons_append, splitFields_open, List.append_assoc, splitFields_doubled,
      List.cons_append, splitFields_close stop, ih next]
  | unclosed part =>
    obtain rfl | ⟨last, -⟩ := next
    · rw [List.cons_append, splitFields_open, splitFields_doubled]
      simp [splitFields]
    · cases last

theorem fieldText_splitFields {line : List Char} {fields : List (List Char)}
    (h : Splits delimiter line fields) :
    (splitFields delimiter false line).1 :: (splitFields delimiter false line).2 = fields := by
  induction h with
  | last here =>
    have read := splitFields_fieldText here (.inl rfl) rfl
    rw [List.append_nil] at read
    rw [read]
    rfl
  | @cons cs field rest fields notQuote here _ ih =>
    have delimits : splitFields delimiter false (delimiter :: rest) =
        ([], (splitFields delimiter false rest).1 :: (splitFields delimiter false rest).2) := by
      rw [splitFields_plain notQuote, if_pos rfl]
    rw [splitFields_fieldText here (.inr ⟨rfl, rfl, notQuote⟩) (by rw [delimits]), delimits, ih]

theorem doubled_cons (c : Char) (cs : List Char) :
    Sql.doubled '"' (c :: cs) = Sql.doubled '"' [c] ++ Sql.doubled '"' cs := by
  by_cases quote : c = '"' <;> simp [Sql.doubled, quote]

/-- A quoted part may have one more character in front. -/
theorem FieldText.quoted_cons {last : Bool} {cs field : List Char}
    (h : FieldText delimiter last ('"' :: cs) field) (c : Char) :
    FieldText delimiter last ('"' :: (Sql.doubled '"' [c] ++ cs)) (c :: field) := by
  cases h with
  | plain notQuote => exact absurd rfl notQuote
  | quoted part closed more =>
    rw [← List.append_assoc, ← doubled_cons]
    exact .quoted (c :: part) closed more
  | unclosed =>
    rw [← doubled_cons]
    exact .unclosed (c :: field)

theorem Splits.quoted_cons {cs field : List Char} {fields : List (List Char)}
    (h : Splits delimiter ('"' :: cs) (field :: fields)) (c : Char) :
    Splits delimiter ('"' :: (Sql.doubled '"' [c] ++ cs)) ((c :: field) :: fields) := by
  generalize whole : '"' :: cs = line at h
  cases h with
  | last here =>
    subst whole
    exact .last (here.quoted_cons c)
  | @cons front _ rest _ notQuote here more =>
    cases front with
    | nil => exact absurd (List.cons.inj whole).1.symm notQuote
    | cons d front =>
      obtain ⟨rfl, rfl⟩ : '"' = d ∧ cs = front ++ delimiter :: rest := List.cons.inj whole
      rw [← List.append_assoc]
      exact .cons notQuote (here.quoted_cons c) more

theorem Splits.plain {c : Char} {cs field : List Char} {fields : List (List Char)}
    (h : Splits delimiter cs (field :: fields)) (notQuote : c ≠ '"')
    (notDelimiter : c ≠ delimiter) :
    Splits delimiter (c :: cs) ((c :: field) :: fields) := by
  cases h with
  | last here => exact .last (.plain notQuote notDelimiter here)
  | cons quote here more => exact .cons quote (.plain notQuote notDelimiter here) more

theorem Splits.closed {cs field : List Char} {fields : List (List Char)}
    (h : Splits delimiter cs (field :: fields)) (closed : cs.head? ≠ some '"') :
    Splits delimiter ('"' :: '"' :: cs) (field :: fields) := by
  cases h with
  | last here => exact .last (.quoted [] closed here)
  | @cons front _ rest _ notQuote here more =>
    have stop : front.head? ≠ some '"' := by
      cases front with
      | nil => exact nofun
      | cons => exact closed
    exact .cons notQuote (.quoted [] stop here) more

/-- What is read is a way to cut the line. While a quote is open, that is so of the line with this
quote in front. -/
theorem splits_splitFields (quoted : Bool) (cs : List Char) :
    Splits delimiter (if quoted then '"' :: cs else cs)
      ((splitFields delimiter quoted cs).1 :: (splitFields delimiter quoted cs).2) := by
  fun_induction splitFields delimiter quoted cs with
  -- the end of the line
  | case1 quoted =>
    cases quoted with
    | false => exact .last .nil
    | true => exact .last (.unclosed [])
  -- two quotes in a quoted part
  | case2 rest field others read ih =>
    rw [read] at ih
    exact ih.quoted_cons '"'
  -- a quote that opens or closes a quoted part
  | case3 quoted rest single ih =>
    cases quoted with
    | false => exact ih
    | true =>
      refine Splits.closed ih fun first => ?_
      obtain ⟨more, rfl⟩ := List.head?_eq_some_iff.1 first
      exact single more rfl rfl rfl
  -- the delimiter, outside of quotes
  | case4 quoted c rest _ notQuote field others read delimits ih =>
    obtain ⟨rfl, rfl⟩ := delimits
    rw [read] at ih
    exact .cons notQuote .nil ih
  -- any other character, which belongs to the field
  | case5 quoted c rest _ notQuote field others read plain ih =>
    rw [read] at ih
    cases quoted with
    | false => exact ih.plain notQuote fun same => plain ⟨same, rfl⟩
    | true =>
      have more := ih.quoted_cons c
      rwa [Sql.doubled, if_neg notQuote] at more

theorem splits_iff {line : List Char} {fields : List (List Char)} : Splits delimiter line fields ↔
    fields = (splitFields delimiter false line).1 :: (splitFields delimiter false line).2 := by
  constructor
  · exact fun h => (fieldText_splitFields h).symm
  · rintro rfl
    exact splits_splitFields false line

/-- The reader finds the fields of a line. -/
theorem splits_toList_iff {line : List Char} {row : List String} :
    Splits delimiter line (row.map String.toList) ↔ fields delimiter line = row := by
  change _ ↔ ((splitFields delimiter false line).1 :: (splitFields delimiter false line).2).map
    String.ofList = row
  rw [splits_iff]
  constructor
  · intro read
    rw [← read, List.map_map]
    exact List.map_id'' (fun _ => String.ofList_toList) row
  · rintro rfl
    rw [List.map_map]
    exact List.map_id'' (fun _ => String.toList_ofList) _

end

/-- The reader finds the rows of a text. -/
theorem rawRows_iff {format : Format} {text : String} {rows : List (List String)} :
    RawRows format text rows ↔ rowsOf format.delimiter
      (if format.hasHeader then (Text.linesOf text.toList).tail else Text.linesOf text.toList) =
        rows := by
  have blank (line : List Char) : (line.any fun c => !Text.isBlank c) = !line.all Text.isBlank :=
    List.not_all_eq_any_not.symm
  simp only [RawRows, lines_iff, exists_eq_left, splits_toList_iff, rowsOf, dataLines, blank]
  rw [← List.forall₂_map_left_iff (R := Eq), List.forall₂_eq_eq_eq]

end Crosstab.Delimited
