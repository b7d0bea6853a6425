import Crosstab.Proofs.Sql.Unambiguous

/-!
# Quotes

A name or a text stands between quotes, with each quote in it doubled. SQL reads a doubled quote as
one quote and ends at a single one, so it reads what was written, whatever that was, and nothing
that stands between quotes is taken for SQL.

* `readQuoted_eq_some_iff`: what SQL reads between quotes is what was written there;
* `Tokens` cuts a text at its quotes, and `Tokens.unique` says that there is one way to do so;
* `Statement.requoted` puts other names and texts into a statement, and `Statement.Readable.kept`
  says that its text stays the same outside of the quotes.
-/

namespace Crosstab.Sql

/-! ## Quoted tokens -/

section
variable {quote : Char} {cs rest : List Char}

/-- What is read was doubled, up to a quote that stands alone. -/
theorem eq_of_readDoubled {text : List Char} (h : readDoubled quote cs = some (text, rest)) :
    cs = doubled quote text ++ quote :: rest ∧ rest.head? ≠ some quote := by
  -- Two quotes stand for one, a single one is the last, and any other character is itself.
  fun_induction readDoubled quote cs generalizing text with
  | case1 => cases h
  | case2 =>
    cases h
    exact ⟨rfl, nofun⟩
  | case3 more ih =>
    obtain ⟨⟨inner, last⟩, read, same⟩ := Option.map_eq_some_iff.1 h
    cases same
    obtain ⟨rfl, stop⟩ := ih read
    exact ⟨by simp [doubled], stop⟩
  | case4 d more other =>
    cases h
    exact ⟨rfl, by simpa using other⟩
  | case5 d more other ih =>
    obtain ⟨⟨inner, last⟩, read, same⟩ := Option.map_eq_some_iff.1 h
    cases same
    obtain ⟨rfl, stop⟩ := ih read
    exact ⟨by simp [doubled, other], stop⟩

/-- A quoted text is read from where it is written and from nowhere else. -/
theorem readQuoted_eq_some_iff {text : String} : readQuoted quote cs = some (text, rest) ↔
    cs = (quoted quote text).toList ++ rest ∧ rest.head? ≠ some quote := by
  constructor
  · intro h
    cases cs with
    | nil => cases h
    | cons c cs =>
      by_cases same : c = quote
      · subst same
        simp only [readQuoted, if_true] at h
        obtain ⟨⟨inner, last⟩, read, same⟩ := Option.map_eq_some_iff.1 h
        cases same
        obtain ⟨rfl, stop⟩ := eq_of_readDoubled read
        exact ⟨by simp [quoted], stop⟩
      · simp [readQuoted, same] at h
  · rintro ⟨rfl, stop⟩
    apply readQuoted_quoted
    intro c hc
    rw [bne_iff_ne]
    rintro rfl
    exact stop hc

theorem exists_of_readQuoted {text : String} (h : readQuoted quote cs = some (text, rest)) :
    ∃ more, cs = quote :: more := by
  obtain ⟨rfl, -⟩ := readQuoted_eq_some_iff.1 h
  obtain ⟨more, same⟩ := isPrefix_quoted quote text
  exact ⟨more ++ rest, by rw [← same]; rfl⟩

end

example : readQuoted '"' (quotedName "a\"b" ++ " AS").toList = some ("a\"b", [' ', 'A', 'S']) := by
  cbv

/-! ## Texts cut at their quotes -/

/-- The characters that quoted tokens begin with. -/
def isQuote (c : Char) : Bool := c == '"' || c == '\''

/-- What a text is made of: names and texts between quotes, and characters outside of them. -/
inductive Token
  | name (name : String)
  | text (text : String)
  | outside (c : Char)

/-- A text and its tokens, where each quote begins a name or a text. -/
inductive Tokens : List Char → List Token → Prop where
  | nil : Tokens [] []
  | name {cs rest : List Char} {tokens : List Token} {name : String}
      (read : readQuoted '"' cs = some (name, rest)) (more : Tokens rest tokens) :
      Tokens cs (.name name :: tokens)
  | text {cs rest : List Char} {tokens : List Token} {text : String}
      (read : readQuoted '\'' cs = some (text, rest)) (more : Tokens rest tokens) :
      Tokens cs (.text text :: tokens)
  | outside {c : Char} {cs : List Char} {tokens : List Token} (plain : isQuote c = false)
      (more : Tokens cs tokens) : Tokens (c :: cs) (.outside c :: tokens)

/-- There is one way to cut a text at its quotes. -/
theorem Tokens.unique {cs : List Char} {tokens others : List Token} (h : Tokens cs tokens)
    (h' : Tokens cs others) : tokens = others := by
  -- The first character decides which of the rules made the other tokens.
  induction h generalizing others with
  | nil =>
    cases h' with
    | nil => rfl
    | name read | text read => cases read
  | name read _ ih =>
    obtain ⟨more, rfl⟩ := exists_of_readQuoted read
    cases h' with
    | name read' more' =>
      cases read.symm.trans read'
      rw [ih more']
    | text read' => cases read'
    | outside plain => cases plain
  | text read _ ih =>
    obtain ⟨more, rfl⟩ := exists_of_readQuoted read
    cases h' with
    | name read' => cases read'
    | text read' more' =>
      cases read.symm.trans read'
      rw [ih more']
    | outside plain => cases plain
  | outside plain _ ih =>
    cases h' with
    | name read' | text read' =>
      obtain ⟨more, same⟩ := exists_of_readQuoted read'
      cases same
      cases plain
    | outside _ more' => rw [ih more']

def Anything (_ : List Char) : Prop := True

/-- Only what does not begin with a quote may follow. -/
def NoQuote (rest : List Char) : Prop := ∀ c ∈ rest.head?, isQuote c = false

/-- The text has the tokens in front of anything that may follow it. -/
def Splits (ends : List Char → Prop) (text : String) (tokens : List Token) : Prop :=
  ∀ rest more, ends rest → Tokens rest more → Tokens (text.toList ++ rest) (tokens ++ more)

/-- A text without quotes in it. -/
def Unquoted (w : String) : Prop := w.toList.all (!isQuote ·) = true

instance (w : String) : Decidable (Unquoted w) := inferInstanceAs (Decidable (_ = _))

theorem splits_unquoted {w : String} (unquoted : Unquoted w) :
    Splits Anything w (w.toList.map .outside) := by
  intro rest more _ h
  rw [Unquoted, List.all_eq_true] at unquoted
  generalize w.toList = cs at unquoted
  induction cs with
  | nil => exact h
  | cons c cs ih =>
    obtain ⟨here, others⟩ := List.forall_mem_cons.1 unquoted
    exact .outside (by simpa using here) (ih others)

theorem splits_name (name : String) : Splits NoQuote (quotedName name) [.name name] := by
  intro rest more ends h
  refine .name (readQuoted_eq_some_iff.2 ⟨rfl, ?_⟩) h
  intro quote
  cases ends _ quote

theorem splits_text (text : String) : Splits NoQuote (quotedText text) [.text text] := by
  intro rest more ends h
  refine .text (readQuoted_eq_some_iff.2 ⟨rfl, ?_⟩) h
  intro quote
  cases ends _ quote

theorem Splits.append {p q : List Char → Prop} {s t : String} {tokens more : List Token}
    (l : Splits p s tokens) (r : Splits q t more)
    (next : ∀ rest, q rest → p (t.toList ++ rest)) : Splits q (s ++ t) (tokens ++ more) := by
  intro rest last ends h
  rw [String.toList_append, List.append_assoc, List.append_assoc]
  exact l _ _ (next rest ends) (r rest last ends h)

/-! ## Other names and texts -/

section
variable (names texts : String → String)

def Token.requoted : Token → Token
  | name s => name (names s)
  | text s => text (texts s)
  | outside c => outside c

def Literal.requoted : Literal → Literal
  | .text s => .text (texts s)
  | value => value

namespace Expr

mutual

/-- The expression with other names and texts. -/
def requoted : Expr → Expr
  | literal value => .literal (value.requoted texts)
  | column owner name => .column (owner.map names) (names name)
  | binary left op right => .binary (requoted left) op (requoted right)
  | not operand => .not (requoted operand)
  | call function args => .call function (requotedAll args)
  | window function args keys => .window function (requotedAll args) (requotedKeys keys)
  | cast operand type => .cast (requoted operand) type
  | case branches otherwise => .case (requotedBranches branches) (requotedElse otherwise)
  | isNull operand negated => .isNull (requoted operand) negated
  | star => .star

def requotedAll : List Expr → List Expr
  | [] => []
  | e :: rest => requoted e :: requotedAll rest

def requotedKeys : List (Expr × Bool) → List (Expr × Bool)
  | [] => []
  | (e, ascending) :: rest => (requoted e, ascending) :: requotedKeys rest

def requotedBranches : List (Expr × Expr) → List (Expr × Expr)
  | [] => []
  | (condition, value) :: rest => (requoted condition, requoted value) :: requotedBranches rest

def requotedElse : Option Expr → Option Expr
  | none => none
  | some value => some (requoted value)

end

end Expr

def SelectItem.requoted (item : SelectItem) : SelectItem :=
  ⟨item.expr.requoted names texts, item.asName.map names⟩

mutual

def Statement.requoted : Statement → Statement
  | .select columns source condition groups keys =>
    .select (columns.map (SelectItem.requoted names texts)) (Source.requoted source)
      (condition.map (Expr.requoted names texts)) (groups.map (Expr.requoted names texts))
      (keys.map fun k => (k.1.requoted names texts, k.2))
  | .union all left right => .union all (Statement.requoted left) (Statement.requoted right)

def Source.requoted : Source → Source
  | .nothing => .nothing
  | .item table => .item (TableRef.requoted table)
  | .join left kind right condition =>
    .join (Source.requoted left) kind (TableRef.requoted right) (condition.requoted names texts)

def TableRef.requoted : TableRef → TableRef
  | .table name asName => .table (names name) (asName.map names)
  | .subquery query asName => .subquery (Statement.requoted query) (names asName)

end

theorem Expr.requotedAll_eq (es : List Expr) :
    Expr.requotedAll names texts es = es.map (Expr.requoted names texts) := by
  induction es with
  | nil => rfl
  | cons e es ih => rw [Expr.requotedAll, ih, List.map_cons]

theorem Expr.requotedKeys_eq (keys : List (Expr × Bool)) :
    Expr.requotedKeys names texts keys = keys.map fun k => (k.1.requoted names texts, k.2) := by
  induction keys with
  | nil => rfl
  | cons k keys ih => rw [Expr.requotedKeys, ih, List.map_cons]

/-- In front of anything that may follow, the two have the same tokens, but for names and texts that
are replaced. -/
def Alike (ends : List Char → Prop) (s t : String) : Prop :=
  ∃ tokens, Splits ends s tokens ∧ Splits ends t (tokens.map (Token.requoted names texts))

/-- The text of the expression stays the same outside of the quotes. -/
abbrev Expr.Kept (e : Expr) : Prop :=
  Alike names texts NoQuote e.render (e.requoted names texts).render

/-- The text of the statement stays the same outside of the quotes. -/
abbrev Statement.Kept (st : Statement) : Prop :=
  Alike names texts NoQuote st.render (st.requoted names texts).render

end

section
variable {names texts : String → String} {p : List Char → Prop} {s s' t t' w : String}

theorem Alike.mono (h : Alike names texts Anything s t) : Alike names texts p s t := by
  obtain ⟨tokens, first, second⟩ := h
  exact ⟨tokens, fun rest more _ => first rest more trivial,
    fun rest more _ => second rest more trivial⟩

theorem alike_unquoted (unquoted : Unquoted w) : Alike names texts p w w := by
  apply Alike.mono
  refine ⟨_, splits_unquoted unquoted, ?_⟩
  rw [List.map_map]
  exact splits_unquoted unquoted

theorem alike_name (name : String) :
    Alike names texts NoQuote (quotedName name) (quotedName (names name)) :=
  ⟨_, splits_name name, splits_name (names name)⟩

theorem alike_text (text : String) :
    Alike names texts NoQuote (quotedText text) (quotedText (texts text)) :=
  ⟨_, splits_text text, splits_text (texts text)⟩

theorem Alike.next (l : Alike names texts Anything s t) (r : Alike names texts p s' t') :
    Alike names texts p (s ++ s') (t ++ t') := by
  obtain ⟨tokens, l, l'⟩ := l
  obtain ⟨more, r, r'⟩ := r
  refine ⟨tokens ++ more, l.append r fun _ _ => trivial, ?_⟩
  rw [List.map_append]
  exact l'.append r' fun _ _ => trivial

/-- A word without quotes, which keeps the quotes around it apart. -/
def Separates (w : String) : Prop := w.toList ≠ [] ∧ Unquoted w

instance (w : String) : Decidable (Separates w) := inferInstanceAs (Decidable (_ ∧ _))

theorem noQuote_of_separates (separates : Separates w) (rest : List Char) :
    NoQuote (w.toList ++ rest) := by
  obtain ⟨nonempty, unquoted⟩ := separates
  obtain ⟨c, cs, chars⟩ := List.exists_cons_of_ne_nil nonempty
  rw [Unquoted, chars] at unquoted
  rw [chars]
  rintro _ ⟨⟩
  simpa using List.all_eq_true.1 unquoted c List.mem_cons_self

theorem Alike.word (h : Alike names texts NoQuote s t) (separates : Separates w) :
    Alike names texts Anything (s ++ w) (t ++ w) := by
  obtain ⟨tokens, first, second⟩ := h
  obtain ⟨more, r, r'⟩ : Alike names texts Anything w w := alike_unquoted separates.2
  refine ⟨tokens ++ more, first.append r fun rest _ => noQuote_of_separates separates rest, ?_⟩
  rw [List.map_append]
  exact second.append r' fun rest _ => noQuote_of_separates separates rest

/-- Texts that are alike after any that are: they are empty, or begin with a word that keeps the
quotes apart. -/
def Continues (names texts : String → String) (s t : String) : Prop :=
  ∀ a b, Alike names texts NoQuote a b → Alike names texts NoQuote (a ++ s) (b ++ t)

theorem continues_nil : Continues names texts "" "" := by
  intro a b h
  simpa using h

theorem continues_word (separates : Separates w) (h : Alike names texts NoQuote s t) :
    Continues names texts (w ++ s) (w ++ t) := by
  intro a b before
  rw [← String.append_assoc, ← String.append_assoc]
  exact (before.word separates).next h

theorem Continues.append (h : Continues names texts s t) (h' : Continues names texts s' t') :
    Continues names texts (s ++ s') (t ++ t') := by
  intro a b before
  rw [← String.append_assoc, ← String.append_assoc]
  exact h' _ _ (h a b before)

theorem alike_commaList {α : Type} {f g : α → String} {parts : List α}
    (each : ∀ a ∈ parts, Alike names texts NoQuote (f a) (g a)) :
    Alike names texts NoQuote (commaList (parts.map f)) (commaList (parts.map g)) := by
  induction parts with
  | nil =>
    rw [List.map_nil, List.map_nil]
    exact alike_unquoted (by decide)
  | cons a parts ih =>
    obtain ⟨here, others⟩ := List.forall_mem_cons.1 each
    cases parts with
    | nil => simpa [commaList] using here
    | cons b parts =>
      have rest := ih others
      simp only [commaList, List.map_cons, String.intercalate_cons_cons] at rest ⊢
      exact (here.word (by decide)).next rest

theorem continues_listClause {α : Type} {f g : α → String} {parts : List α}
    (separates : Separates w) (each : ∀ a ∈ parts, Alike names texts NoQuote (f a) (g a)) :
    Continues names texts (listClause w (parts.map f)) (listClause w (parts.map g)) := by
  cases parts with
  | nil => exact continues_nil
  | cons a parts => exact continues_word separates (alike_commaList each)

/-! ## Expressions -/

theorem unquoted_of_all {q : Char → Bool} (name : q '"' = false) (text : q '\'' = false)
    (all : w.toList.all q = true) : Unquoted w := by
  rw [Unquoted, List.all_eq_true]
  intro c hc
  have member := List.all_eq_true.1 all c hc
  by_contra quote
  have either : c = '"' ∨ c = '\'' := by simpa [isQuote, or_iff_not_imp_left] using quote
  obtain rfl | rfl := either
  · rw [name] at member
    cases member
  · rw [text] at member
    cases member

theorem unquoted_of_numeric (numeric : w.toList.all isNumeric = true) : Unquoted w :=
  unquoted_of_all rfl rfl numeric

theorem unquoted_of_isWord (word : IsWord w) : Unquoted w := unquoted_of_all rfl rfl word.2

theorem alike_literal {value : Literal} (finite : value.IsFinite) :
    Alike names texts NoQuote value.render (value.requoted texts).render := by
  cases value with
  | integer i => exact alike_unquoted (unquoted_of_numeric (all_isNumeric_toString i.toInt))
  | real v => exact alike_unquoted (unquoted_of_numeric (Double.all_isNumeric_literal finite))
  | text s => exact alike_text s
  | boolean b => cases b <;> exact alike_unquoted (by decide)
  | null => exact alike_unquoted (by decide)

theorem alike_key {key : Expr × Bool} (h : key.1.Kept names texts) :
    Alike names texts NoQuote (Expr.keyText key)
      (Expr.keyText (key.1.requoted names texts, key.2)) := by
  obtain ⟨e, ascending⟩ := key
  have direction : Unquoted (directionText ascending) := by cases ascending <;> decide
  exact (h.word (by decide)).next (alike_unquoted direction)

theorem alike_exprs {es : List Expr} (each : ∀ e ∈ es, e.Kept names texts) :
    Alike names texts NoQuote (commaList (Expr.renderAll es))
      (commaList (Expr.renderAll (es.map (Expr.requoted names texts)))) := by
  rw [Expr.renderAll_eq, Expr.renderAll_eq, List.map_map]
  exact alike_commaList each

theorem alike_keys {keys : List (Expr × Bool)} (each : ∀ k ∈ keys, k.1.Kept names texts) :
    Alike names texts NoQuote (commaList (Expr.renderKeys keys))
      (commaList (Expr.renderKeys (keys.map fun k => (k.1.requoted names texts, k.2)))) := by
  rw [Expr.renderKeys_eq, Expr.renderKeys_eq, List.map_map]
  exact alike_commaList fun k hk => alike_key (each k hk)

/-- A function and its arguments, up to what closes them. -/
theorem alike_call {function : String} {args : List Expr} (word : IsWord function)
    (each : ∀ e ∈ args, e.Kept names texts) :
    Alike names texts NoQuote (function ++ "(" ++ commaList (Expr.renderAll args))
      (function ++ "(" ++ commaList (Expr.renderAll (args.map (Expr.requoted names texts)))) :=
  ((alike_unquoted (unquoted_of_isWord word)).word (by decide)).next (alike_exprs each)

theorem continues_branches {branches : List (Expr × Expr)}
    (conditions : ∀ b ∈ branches, b.1.Kept names texts)
    (values : ∀ b ∈ branches, b.2.Kept names texts) :
    Continues names texts (Expr.renderBranches branches)
      (Expr.renderBranches (Expr.requotedBranches names texts branches)) := by
  induction branches with
  | nil => exact continues_nil
  | cons b branches ih =>
    obtain ⟨condition, conditions⟩ := List.forall_mem_cons.1 conditions
    obtain ⟨value, values⟩ := List.forall_mem_cons.1 values
    have first := (condition.word (w := " THEN ") (by decide)).next value
    have rest := ih conditions values
    simp only [Expr.renderBranches, Expr.requotedBranches]
    refine Continues.append ?_ rest
    simpa only [String.append_assoc] using continues_word (w := " WHEN ") (by decide) first

theorem continues_else {otherwise : Option Expr} (each : ∀ e ∈ otherwise, e.Kept names texts) :
    Continues names texts (Expr.renderElse otherwise)
      (Expr.renderElse (Expr.requotedElse names texts otherwise)) := by
  cases otherwise with
  | none => exact continues_nil
  | some e => exact continues_word (by decide) (each e rfl)

/-- The text of a readable expression stays the same outside of the quotes. -/
theorem Expr.Readable.kept {e : Expr} (h : e.Readable) : e.Kept names texts := by
  induction h with
  | literal finite => exact alike_literal finite
  | column owner name =>
    cases owner with
    | none => exact alike_name name
    | some owner => exact ((alike_name owner).word (by decide)).next (alike_name name)
  | @binary left right op _ _ _ l r =>
    have sign : Unquoted op.sign := by cases op <;> decide
    simp only [Expr.Kept, Expr.render, Expr.requoted]
    have first := ((alike_unquoted (w := "(") (by decide)).next l).word (w := " ") (by decide)
    have second := (first.next (alike_unquoted sign)).word (w := " ") (by decide)
    exact ((second.next r).word (by decide)).mono
  | not _ ih =>
    simp only [Expr.Kept, Expr.render, Expr.requoted]
    exact (((alike_unquoted (by decide)).next ih).word (by decide)).mono
  | call word _ ih =>
    simp only [Expr.Kept, Expr.render, Expr.requoted, Expr.requotedAll_eq]
    exact ((alike_call word ih).word (by decide)).mono
  | window word _ _ ih ihKeys =>
    simp only [Expr.Kept, Expr.render, Expr.requoted, Expr.requotedAll_eq, Expr.requotedKeys_eq]
    have opened := (alike_call word ih).word (w := ") OVER (ORDER BY ") (by decide)
    have ordered := opened.next (alike_keys ihKeys)
    exact (ordered.word (by decide)).mono
  | cast _ type ih =>
    have name : Unquoted type.sqlName := by cases type <;> decide
    simp only [Expr.Kept, Expr.render, Expr.requoted]
    have operand := (alike_unquoted (w := "CAST(") (by decide)).next ih
    have first := operand.word (w := " AS ") (by decide)
    exact ((first.next (alike_unquoted name)).word (by decide)).mono
  | case _ _ _ ihConditions ihValues ihLast =>
    simp only [Expr.Kept, Expr.render, Expr.requoted]
    have opened : Alike names texts NoQuote "CASE" "CASE" := alike_unquoted (by decide)
    have branches := continues_branches ihConditions ihValues _ _ opened
    exact ((continues_else ihLast _ _ branches).word (by decide)).mono
  | isNull _ negated ih =>
    simp only [Expr.Kept, Expr.render, Expr.requoted]
    refine (((alike_unquoted (by decide)).next ih).word ?_).mono
    cases negated <;> decide
  | star => exact alike_unquoted (by decide)

/-! ## Statements -/

theorem alike_item {item : SelectItem} (h : item.expr.Readable) :
    Alike names texts NoQuote item.render (item.requoted names texts).render := by
  obtain ⟨e, asName⟩ := item
  cases asName with
  | none => exact h.kept
  | some asName => exact (h.kept.word (by decide)).next (alike_name asName)

theorem alike_table {table : TableRef} (h : ∀ query ∈ table.query?, query.Kept names texts) :
    Alike names texts NoQuote table.render (table.requoted names texts).render := by
  cases table with
  | table name asName =>
    cases asName with
    | none => exact alike_name name
    | some asName => exact ((alike_name name).word (by decide)).next (alike_name asName)
  | subquery query asName =>
    simp only [TableRef.render, TableRef.requoted]
    have inside := (alike_unquoted (w := "(") (by decide)).next (h query rfl)
    exact (inside.word (by decide)).next (alike_name asName)

theorem continues_item {table : TableRef} (h : ∀ query ∈ table.query?, query.Kept names texts) :
    Continues names texts (Source.item table).render
      ((Source.item table).requoted names texts).render :=
  continues_word (by decide) (alike_table h)

theorem continues_join {left : Source} {right : TableRef} {condition : Expr}
    (l : Continues names texts left.render (left.requoted names texts).render) (kind : JoinKind)
    (r : ∀ query ∈ right.query?, query.Kept names texts)
    (on : condition.Readable) :
    Continues names texts (Source.join left kind right condition).render
      ((Source.join left kind right condition).requoted names texts).render := by
  have joined : Separates (joinText kind ++ " ") := by cases kind <;> decide
  have second := ((alike_table r).word (w := " ON ") (by decide)).next on.kept
  have both := l.append (continues_word (w := " ") (by decide)
    ((alike_unquoted joined.2).next second))
  simpa only [Source.render, Source.requoted, String.append_assoc] using both

theorem continues_where {condition : Option Expr} (h : ∀ e ∈ condition, e.Readable) :
    Continues names texts (whereClause condition)
      (whereClause (condition.map (Expr.requoted names texts))) := by
  cases condition with
  | none => exact continues_nil
  | some e => exact continues_word (by decide) (h e rfl).kept

variable {columns : List SelectItem} {source : Source} {condition : Option Expr}
  {groups : List Expr} {keys : List (Expr × Bool)}

theorem alike_items (h : ∀ item ∈ columns, item.expr.Readable) :
    Alike names texts NoQuote (commaList (columns.map SelectItem.render))
      (commaList ((columns.map (SelectItem.requoted names texts)).map SelectItem.render)) := by
  rw [List.map_map]
  exact alike_commaList fun item hi => alike_item (h item hi)

theorem continues_groups (h : ∀ e ∈ groups, e.Readable) :
    Continues names texts (listClause " GROUP BY " (Expr.renderAll groups))
      (listClause " GROUP BY " (Expr.renderAll (groups.map (Expr.requoted names texts)))) := by
  rw [Expr.renderAll_eq, Expr.renderAll_eq, List.map_map]
  exact continues_listClause (by decide) fun e he => (h e he).kept

theorem continues_keys (h : ∀ k ∈ keys, k.1.Readable) :
    Continues names texts (listClause " ORDER BY " (Expr.renderKeys keys))
      (listClause " ORDER BY "
        (Expr.renderKeys (keys.map fun k => (k.1.requoted names texts, k.2)))) := by
  rw [Expr.renderKeys_eq, Expr.renderKeys_eq, List.map_map]
  exact continues_listClause (by decide) fun k hk => alike_key (h k hk).kept

theorem alike_select (clauses : ReadableClauses columns condition groups keys)
    (drawn : Continues names texts source.render (source.requoted names texts).render) :
    (Statement.select columns source condition groups keys).Kept names texts := by
  simp only [Statement.Kept, Statement.render, Statement.requoted]
  apply continues_keys clauses.keys
  apply continues_groups clauses.groups
  apply continues_where clauses.condition
  apply drawn
  exact (alike_unquoted (by decide)).next (alike_items clauses.items)

/-- The text of a readable statement stays the same outside of the quotes. -/
theorem Statement.Readable.kept {st : Statement} (h : st.Readable) : st.Kept names texts := by
  induction h with
  | select _ clauses ih => exact alike_select clauses (continues_item ih)
  | join _ kind _ on clauses ihl ihr =>
    exact alike_select clauses (continues_join (continues_item ihl) kind ihr on)
  | union _ _ leftClauses rightClauses ihl ihr =>
    simp only [Statement.Kept, Statement.render, Statement.requoted]
    refine Alike.next (Alike.word ?_ (by decide)) ?_
    · exact alike_select leftClauses (continues_item ihl)
    · exact alike_select rightClauses (continues_item ihr)

end

theorem Splits.tokens {s : String} {tokens : List Token} (h : Splits NoQuote s tokens) :
    Tokens s.toList tokens := by
  have cut := h [] [] nofun .nil
  rwa [List.append_nil, List.append_nil] at cut

/-- The text of a readable statement is cut in one way, and with other names and texts the tokens
are the same but for these. -/
theorem Statement.Readable.tokens {st : Statement} (h : st.Readable) :
    ∃! tokens, Tokens st.render.toList tokens ∧ ∀ names texts : String → String,
      Tokens (st.requoted names texts).render.toList (tokens.map (Token.requoted names texts)) := by
  have each (names texts : String → String) : st.Kept names texts := h.kept
  -- Each replacement comes with tokens of its own; there is only one way to cut the text.
  obtain ⟨tokens, first, -⟩ := each id id
  refine ⟨tokens, ⟨first.tokens, ?_⟩, fun others h' => h'.1.unique first.tokens⟩
  intro names texts
  obtain ⟨others, same, second⟩ := each names texts
  rw [first.tokens.unique same.tokens]
  exact second.tokens

theorem readable_of_compiled {q : Query} {st : Statement}
    (h : q.statement = .ok st ∨ q.countStatement = .ok st) : st.Readable := by
  obtain rows | count := h
  · exact q.plan.readable_of_statement 0 st rows
  · obtain ⟨rows, compiled, made⟩ := bind_eq_ok_iff.1 count
    rw [← pure_eq_ok_iff.1 made]
    refine .select ?_ (.plain ?_)
    · rintro query ⟨⟩
      exact q.plan.readable_of_statement 0 rows compiled
    · have star : ∀ e ∈ [Expr.star], e.Readable := by simpa using Expr.Readable.star
      simpa using Expr.Readable.call (by decide) star

/-- Quotes cannot be escaped from. SQL reads a name between double quotes and a text between single
ones where it is written so and no further quote of the kind follows, and nowhere else; what follows
is left as it stands. So nothing in a name or a text of a query is taken for SQL: the text of its
statement is cut at the quotes in one way, and with any other names and texts in the statement the
tokens are the same but for these. -/
theorem quotes_inescapable :
    (∀ (cs rest : List Char) (name : String), readQuoted '"' cs = some (name, rest) ↔
      cs = (quotedName name).toList ++ rest ∧ rest.head? ≠ some '"') ∧
    (∀ (cs rest : List Char) (text : String), readQuoted '\'' cs = some (text, rest) ↔
      cs = (quotedText text).toList ++ rest ∧ rest.head? ≠ some '\'') ∧
    ∀ (q : Query) (st : Statement), q.statement = .ok st ∨ q.countStatement = .ok st →
      ∃! tokens, Tokens st.render.toList tokens ∧ ∀ names texts : String → String,
        Tokens (st.requoted names texts).render.toList
          (tokens.map (Token.requoted names texts)) := by
  refine ⟨fun cs rest name => ?_, fun cs rest text => ?_, fun q st compiled => ?_⟩
  · exact readQuoted_eq_some_iff
  · exact readQuoted_eq_some_iff
  · exact (readable_of_compiled compiled).tokens

/-- A text that tries to end early and to add a condition of its own. -/
theorem quotes_inescapable_markedSales :
    readQuoted '\'' ((quotedText "' OR '' = '").toList ++ [')']) = some ("' OR '' = '", [')']) ∧
    ∃ q, markedSales .text (.text "' OR '' = '") = .ok q ∧
      q.statement = .ok (markedStatement (.text "' OR '' = '")) ∧
      ∃! tokens, Tokens (markedStatement (.text "' OR '' = '")).render.toList tokens ∧
        ∀ names texts : String → String,
          Tokens ((markedStatement (.text "' OR '' = '")).requoted names texts).render.toList
            (tokens.map (Token.requoted names texts)) := by
  obtain ⟨q, made, compiled⟩ : ∃ q, markedSales .text (.text "' OR '' = '") = .ok q ∧
      q.statement = .ok (markedStatement (.text "' OR '' = '")) := ⟨_, rfl, rfl⟩
  obtain ⟨-, text, statement⟩ := quotes_inescapable
  exact ⟨(text _ _ _).2 ⟨rfl, by decide⟩, q, made, compiled, statement q _ (.inl compiled)⟩

end Crosstab.Sql
