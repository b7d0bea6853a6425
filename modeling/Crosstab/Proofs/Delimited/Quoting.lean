import Crosstab.Proofs.Delimited.Reading
import Crosstab.Proofs.Sql.Tokens

/-!
# Quoted text

A table can be written with every field between quotes, whatever delimiters, quotes, carriage
returns or blank characters its fields hold, and is read back from that text.
-/

namespace Crosstab.Delimited

/-- A field between quotes, with each quote in it written twice. -/
def quotedField (field : String) : List Char := '"' :: (Sql.doubled '"' field.toList ++ ['"'])

/-- Quoted fields with the delimiter between them. -/
def quotedLine (delimiter : Char) (row : List String) : List Char :=
  [delimiter].intercalate (row.map quotedField)

/-- The two ways to end a line. -/
inductive LineEnd
  | feed
  | returnFeed

def LineEnd.chars : LineEnd → List Char
  | feed => ['\n']
  | returnFeed => ['\r', '\n']

/-- Lines with line ends between them, and one after the last line or none. -/
def joinedLines (ending : LineEnd) (final : Bool) (lines : List (List Char)) : List Char :=
  ending.chars.intercalate lines ++ if final then ending.chars else []

/-- The text of rows of fields. -/
def quotedText (delimiter : Char) (ending : LineEnd) (final : Bool) (rows : List (List String)) :
    String :=
  String.ofList (joinedLines ending final (rows.map (quotedLine delimiter)))

/-! ## Fields -/

section
variable {delimiter : Char}

theorem quotedLine_singleton (field : String) :
    quotedLine delimiter [field] = '"' :: (Sql.doubled '"' field.toList ++ ['"']) := by
  simp [quotedLine, quotedField]

theorem quotedLine_cons_cons (field next : String) (row : List String) :
    quotedLine delimiter (field :: next :: row) = '"' :: (Sql.doubled '"' field.toList ++
      '"' :: (delimiter :: quotedLine delimiter (next :: row))) := by
  simp [quotedLine, quotedField, List.intercalate_cons_cons]

theorem fieldText_quoted {last : Bool} (field : String) : FieldText delimiter last
    ('"' :: (Sql.doubled '"' field.toList ++ ['"'])) field.toList := by
  have text : FieldText delimiter last ('"' :: (Sql.doubled '"' field.toList ++ ['"']))
    (field.toList ++ []) := .quoted field.toList nofun .nil
  rwa [List.append_nil] at text

variable (notQuote : delimiter ≠ '"')
include notQuote

/-- A quoted line has the fields that were written. -/
theorem splits_quotedLine {row : List String} (nonempty : row ≠ []) :
    Splits delimiter (quotedLine delimiter row) (row.map String.toList) := by
  induction row with
  | nil => exact absurd rfl nonempty
  | cons field row ih =>
    cases row with
    | nil =>
      rw [quotedLine_singleton]
      exact .last (fieldText_quoted field)
    | cons next row =>
      have line := Splits.cons notQuote (fieldText_quoted field) (ih (List.cons_ne_nil _ _))
      rw [quotedLine_cons_cons]
      simpa using line

end

/-! ## Lines -/

/-- A line that can be told from the others: without a line feed, and not ending in a carriage
return. -/
structure IsLine (line : List Char) : Prop where
  nonempty : line ≠ []
  noFeed : '\n' ∉ line
  noReturn : line.getLast? ≠ some '\r'

theorem lines_ending {line rest : List Char} {lines : List (List Char)} (isLine : IsLine line)
    (ending : LineEnd) (more : Lines rest lines) :
    Lines (line ++ (ending.chars ++ rest)) (line :: lines) := by
  cases ending with
  | feed => exact .feed isLine.noFeed isLine.noReturn more
  | returnFeed => exact .returnFeed isLine.noFeed more

/-- Lines that were joined are found again. -/
theorem lines_joinedLines (ending : LineEnd) (final : Bool) {lines : List (List Char)}
    (nonempty : lines ≠ []) (all : ∀ line ∈ lines, IsLine line) :
    Lines (joinedLines ending final lines) lines := by
  induction lines with
  | nil => exact absurd rfl nonempty
  | cons line lines ih =>
    obtain ⟨first, others⟩ := List.forall_mem_cons.1 all
    cases lines with
    | nil =>
      rw [joinedLines, List.intercalate_singleton]
      cases final with
      | false => simpa using Lines.last first.nonempty first.noFeed
      | true => simpa using lines_ending first ending .nil
    | cons next lines =>
      have joined : joinedLines ending final (line :: next :: lines) =
          line ++ (ending.chars ++ joinedLines ending final (next :: lines)) := by
        simp [joinedLines, List.intercalate_cons_cons]
      rw [joined]
      exact lines_ending first ending (ih (List.cons_ne_nil _ _) others)

/-! ## Texts -/

/-- No field has a line feed. -/
def NoFeed (row : List String) : Prop := ∀ field ∈ row, '\n' ∉ field.toList

instance (row : List String) : Decidable (NoFeed row) :=
  inferInstanceAs (Decidable (∀ field ∈ row, '\n' ∉ field.toList))

section
variable {delimiter : Char}

/-- A quoted line begins with a quote. -/
theorem exists_quotedLine (delimiter : Char) {row : List String} (nonempty : row ≠ []) :
    ∃ rest, quotedLine delimiter row = '"' :: rest := by
  cases row with
  | nil => exact absurd rfl nonempty
  | cons field row =>
    cases row with
    | nil => exact ⟨_, quotedLine_singleton field⟩
    | cons next row => exact ⟨_, quotedLine_cons_cons field next row⟩

theorem isLine_quotedLine (notFeed : delimiter ≠ '\n') {row : List String} (nonempty : row ≠ [])
    (noFeed : NoFeed row) : IsLine (quotedLine delimiter row) := by
  induction row with
  | nil => exact absurd rfl nonempty
  | cons field row ih =>
    obtain ⟨first, others⟩ := List.forall_mem_cons.1 noFeed
    have doubled : '\n' ∉ Sql.doubled '"' field.toList := fun h => first (Sql.mem_doubled_iff.1 h)
    cases row with
    | nil =>
      rw [quotedLine_singleton]
      refine ⟨List.cons_ne_nil _ _, by simp [doubled], ?_⟩
      rw [← List.cons_append, List.getLast?_concat]
      decide
    | cons next row =>
      obtain ⟨nonempty, noFeed, noReturn⟩ := ih (List.cons_ne_nil _ _) others
      have line : quotedLine delimiter (field :: next :: row) =
          '"' :: (Sql.doubled '"' field.toList ++ ['"', delimiter]) ++
            quotedLine delimiter (next :: row) := by
        simp [quotedLine_cons_cons]
      rw [line]
      refine ⟨List.cons_ne_nil _ _, by simp [doubled, noFeed, Ne.symm notFeed], ?_⟩
      rwa [List.getLast?_append, List.getLast?_eq_some_getLast nonempty, Option.some_or,
        ← List.getLast?_eq_some_getLast nonempty]

/-- The rows of quoted lines are those that were written, without a line that is blank. -/
theorem rowsOf_quotedLines (notQuote : delimiter ≠ '"') {rows : List (List String)}
    (nonempty : ∀ row ∈ rows, row ≠ []) :
    rowsOf delimiter (rows.map (quotedLine delimiter)) = rows := by
  have filled : ∀ line ∈ rows.map (quotedLine delimiter), (!line.all Text.isBlank) = true := by
    simp only [List.forall_mem_map]
    intro row hr
    obtain ⟨rest, line⟩ := exists_quotedLine delimiter (nonempty row hr)
    rw [line]
    rfl
  rw [rowsOf, List.filter_eq_self.2 filled, List.map_map]
  conv_rhs => rw [← List.map_id rows]
  exact List.map_congr_left fun row hr =>
    splits_toList_iff.1 (splits_quotedLine notQuote (nonempty row hr))

end

theorem linesOf_quotedText {delimiter : Char} (notFeed : delimiter ≠ '\n') (ending : LineEnd)
    (final : Bool) {rows : List (List String)} (some : rows ≠ [])
    (nonempty : ∀ row ∈ rows, row ≠ []) (noFeed : ∀ row ∈ rows, NoFeed row) :
    Text.linesOf (quotedText delimiter ending final rows).toList =
      rows.map (quotedLine delimiter) := by
  rw [quotedText, String.toList_ofList]
  refine linesOf_eq (lines_joinedLines ending final (mt List.map_eq_nil_iff.1 some) ?_)
  rw [List.forall_mem_map]
  exact fun row hr => isLine_quotedLine notFeed (nonempty row hr) (noFeed row hr)

/-- Rows of no more fields than the first are read from the text in which they are quoted. -/
theorem rowsOf_quotedText {delimiter : Char} (notQuote : delimiter ≠ '"')
    (notFeed : delimiter ≠ '\n') (ending : LineEnd) (final : Bool) {rows : List (List String)}
    (nonempty : ∀ row ∈ rows, row ≠ []) (noFeed : ∀ row ∈ rows, NoFeed row) :
    rowsOf delimiter (Text.linesOf (quotedText delimiter ending final rows).toList) = rows := by
  by_cases some : rows = []
  · subst some
    cases ending <;> cases final <;>
      simp [quotedText, joinedLines, LineEnd.chars, Text.linesOf, Text.cutAtFeeds, Text.dropReturn,
        rowsOf]
  · rw [linesOf_quotedText notFeed ending final some nonempty noFeed]
    exact rowsOf_quotedLines notQuote nonempty

theorem columnName_ne_empty (i : Nat) : columnName i ≠ "" := by
  intro empty
  have := congrArg String.toList empty
  simp [columnName] at this

theorem columnName_injective : Function.Injective (foldCase ∘ columnName) :=
  fun _ _ same => sameName_numbered.1 same

/-- Reading undoes quoting. Fields are written between quotes with their own quotes doubled, and
joined by any delimiter that is neither a quote nor a line feed; lines are joined by either line
end, with one after the last line or none. Then the text is read. With a header the ids are the
trimmed names, which are not empty and differ as names; without one they are numbered. Every row has
its values, in columns of the types that their fields have in common: null for a field that is
missing or blank, in a column of texts the field as it was, in a column of numbers the number that
it denotes. -/
theorem read_quotedText {delimiter : Char} (notQuote : delimiter ≠ '"')
    (notFeed : delimiter ≠ '\n') (ending : LineEnd) (final : Bool) :
    (∀ (names : List String) (rows : List (List String)), names ≠ [] →
      (∀ name ∈ names, Text.trimmed name ≠ "") →
      (names.Pairwise fun a b => ¬SameName (Text.trimmed a) (Text.trimmed b)) →
      (∀ row ∈ rows, 1 ≤ row.length ∧ row.length ≤ names.length) →
      (∀ row ∈ names :: rows, NoFeed row) →
      ∃ t, read ⟨delimiter, true⟩ (quotedText delimiter ending final (names :: rows)) = .ok t ∧
        t.schema.ids = names.map Text.trimmed ∧ Reads rows t) ∧
    (∀ rows : List (List String),
      (∀ row ∈ rows, 1 ≤ row.length ∧ row.length ≤ (rows.headD []).length) →
      (∀ row ∈ rows, NoFeed row) →
      ∃ t, read ⟨delimiter, false⟩ (quotedText delimiter ending final rows) = .ok t ∧
        t.schema.ids = (List.range (rows.headD []).length).map (fun i => s!"col{i}") ∧
        Reads rows t) := by
  constructor
  · intro names rows some nonempty distinct widths noFeed
    have filled : ∀ row ∈ names :: rows, row ≠ [] :=
      List.forall_mem_cons.2 ⟨some, fun row hr => List.length_pos_iff.1 (widths row hr).1⟩
    have laid : layout ⟨delimiter, true⟩
        (Text.linesOf (quotedText delimiter ending final (names :: rows)).toList) =
          .ok (names.map Text.trimmed, rows) := by
      rw [linesOf_quotedText notFeed ending final (List.cons_ne_nil _ _) filled noFeed]
      rw [List.map_cons, layout, if_pos rfl]
      rw [splits_toList_iff.1 (splits_quotedLine notQuote some),
        rowsOf_quotedLines notQuote (List.forall_mem_cons.1 filled).2]
    refine exists_read laid (fun row hr => ?_) (by simpa using nonempty) ?_
    · rw [List.length_map]
      exact (widths row hr).2
    · rw [List.Nodup, List.pairwise_map, List.pairwise_map]
      exact distinct
  · intro rows widths noFeed
    have filled : ∀ row ∈ rows, row ≠ [] := fun row hr => List.length_pos_iff.1 (widths row hr).1
    have laid : layout ⟨delimiter, false⟩
        (Text.linesOf (quotedText delimiter ending final rows).toList) =
          .ok ((List.range (rows.headD []).length).map columnName, rows) := by
      unfold layout
      rw [if_neg Bool.false_ne_true,
        rowsOf_quotedText notQuote notFeed ending final filled noFeed]
    refine exists_read laid (fun row hr => ?_) ?_ ?_
    · rw [List.length_map, List.length_range]
      exact (widths row hr).2
    · simp only [List.forall_mem_map]
      exact fun i _ => columnName_ne_empty i
    · rw [List.map_map]
      exact List.nodup_range.map columnName_injective

/-- A name with a comma and quotes, in a line that is shorter than the header. -/
theorem read_quotedText_names :
    (∃ t, read ⟨',', true⟩ "\"Name \",\"Base\"\r\n\"Doe, \"\"Jane\"\"\"\r\n" = .ok t ∧
      t.schema.ids = ["Name", "Base"] ∧ Reads [["Doe, \"Jane\""]] t) ∧
    (∃ t, read ⟨';', false⟩ "\" 7\";\"x\"\n\"\"" = .ok t ∧
      t.schema.ids = ["col0", "col1"] ∧ Reads [[" 7", "x"], [""]] t) :=
  ⟨(read_quotedText (by decide) (by decide) .returnFeed true).1 ["Name ", "Base"]
      [["Doe, \"Jane\""]] (by decide) (by decide) (by decide) (by decide) (by decide),
    (read_quotedText (by decide) (by decide) .feed false).2 [[" 7", "x"], [""]]
      (by decide) (by decide)⟩

end Crosstab.Delimited
