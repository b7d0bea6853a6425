import Crosstab.Proofs.Sql.Expressions

/-!
# SQL statements are read back

The text of a statement says what the statement is, up to truth values. A subquery stands in
parentheses and ends before a closing one, and every clause begins with a word that no clause before
it can contain outside of quotes.
-/

namespace Crosstab.Sql

open Filter

/-! ## Readers -/

/-- A clause with a list, which is empty where the clause is left out. -/
def readClause {α : Type} (keyword : String) (read : Reader (List α)) (cs : List Char) :
    Option (List α × List Char) :=
  match after keyword cs with
  | none => some ([], cs)
  | some rest => read rest

def readItem (fuel : Nat) (cs : List Char) : Option (SelectItem × List Char) := do
  let (e, rest) ← readExpr fuel cs
  let (asName, rest) ← readOptional " AS " (readQuoted '"') rest
  return (⟨e, asName⟩, rest)

section
variable (read : Reader Statement) (fuel : Nat) (cs : List Char)

def readTable : Option (TableRef × List Char) :=
  match after "(" cs with
  | some rest => do
    let (query, rest) ← read rest
    let (asName, rest) ← readQuoted '"' (← after ") AS " rest)
    return (.subquery query asName, rest)
  | none => do
    let (name, rest) ← readQuoted '"' cs
    let (asName, rest) ← readOptional " AS " (readQuoted '"') rest
    return (.table name asName, rest)

def joinWord (kind : JoinKind) : String := " " ++ joinText kind ++ " "

/-- One table or subquery, or two that are joined. -/
def readSource : Option (Source × List Char) := do
  let (left, rest) ← readTable read (← after " FROM " cs)
  match readOneOf joinWord [.inner, .left] rest with
  | none => return (.item left, rest)
  | some (kind, rest) => do
    let (right, rest) ← readTable read rest
    let (condition, rest) ← readExpr fuel (← after " ON " rest)
    return (.join (.item left) kind right condition, rest)

def readSelect : Option (Statement × List Char) := do
  let (columns, rest) ← readList (readItem fuel) fuel (← after "SELECT " cs)
  let (source, rest) ← readSource read fuel rest
  let (condition, rest) ← readOptional " WHERE " (readExpr fuel) rest
  let (groups, rest) ← readClause " GROUP BY " (readList (readExpr fuel) fuel) rest
  let (keys, rest) ← readClause " ORDER BY " (readList (readKey (readExpr fuel)) fuel) rest
  return (.select columns source condition groups keys, rest)

end

/-- A SELECT, or two of which all rows are kept, with a bound on how deep and how long it is. -/
def readStatement : Nat → Reader Statement
  | 0, _ => none
  | fuel + 1, cs => do
    let (left, rest) ← readSelect (readStatement fuel) fuel cs
    match after " UNION ALL " rest with
    | none => return (left, rest)
    | some rest => do
      let (right, rest) ← readSelect (readStatement fuel) fuel rest
      return (.union true left right, rest)

/-! ## What the readers read -/

/-- The words that may follow a SELECT. -/
def selectEnds : List String := [")", " UNION ALL "]

def sourceEnds : List String := [" WHERE ", " GROUP BY ", " ORDER BY "] ++ selectEnds

def tableEnds : List String := [" INNER JOIN ", " LEFT OUTER JOIN ", " ON "] ++ sourceEnds

theorem readsTo_clause {α : Type} {keyword : String} {read : Reader (List α)} {parts : List String}
    {value : List α} {ends : List String} (proper : keyword.toList ≠ [])
    (clash : ∀ w ∈ ends, Clash keyword w) (empty : parts = [] → value = [])
    (h : ReadsTo read (commaList parts).toList value ends) :
    ReadsTo (readClause keyword read) (listClause keyword parts).toList value ends := by
  intro rest follows
  cases parts with
  | nil =>
    simp [readClause, listClause, empty rfl, after_of_follows follows proper clash]
  | cons part parts =>
    have text : listClause keyword (part :: parts) = keyword ++ commaList (part :: parts) := rfl
    rw [text, String.toList_append, List.append_assoc, readClause, after_append]
    exact h rest follows

/-- A clause that may be left out follows, or what follows it. -/
theorem follows_clause {keyword : String} {ends more : List String} (sub : ends ⊆ more)
    (mem : keyword ∈ more) {rest : List Char} (follows : Follows ends rest) (parts : List String) :
    Follows more ((listClause keyword parts).toList ++ rest) := by
  cases parts with
  | nil => exact follows.mono sub
  | cons part parts =>
    have text : listClause keyword (part :: parts) = keyword ++ commaList (part :: parts) := rfl
    rw [text, String.toList_append, List.append_assoc]
    exact follows_word mem _

def aliasText (asName : Option String) : List Char :=
  asName.elim [] fun name => " AS ".toList ++ (quotedName name).toList

theorem readsTo_alias {ends : List String} (clash : ∀ w ∈ ends, Clash " AS " w)
    (apart : ∀ w ∈ ends, w.toList.head?.any (· != '"') = true) (asName : Option String) :
    ReadsTo (readOptional " AS " (readQuoted '"')) (aliasText asName) asName ends := by
  have read : ReadsTo (readOptional " AS " (readQuoted '"')) (aliasText asName) (asName.map id)
      ends := readsTo_optional (by decide) clash asName fun name _ => readsTo_quoted '"' name apart
  rwa [Option.map_id] at read

theorem toList_render_item (item : SelectItem) :
    item.render.toList = item.expr.render.toList ++ aliasText item.asName := by
  obtain ⟨expr, asName⟩ := item
  cases asName with
  | none => simp only [SelectItem.render, aliasText, Option.elim_none, List.append_nil]
  | some name =>
    simp only [SelectItem.render, aliasText, Option.elim_some, String.toList_append,
      List.append_assoc]

theorem readsTo_item {item : SelectItem} {fuel : Nat}
    (e : ReadsTo (readExpr fuel) item.expr.render.toList item.expr.normal exprEnds) :
    ReadsTo (readItem fuel) item.render.toList item.normal [", ", " FROM "] := by
  intro rest follows
  have next : Follows exprEnds (aliasText item.asName ++ rest) :=
    follows_optional " AS " [", ", " FROM "] (by decide) (by decide) follows item.asName _
  have second := readsTo_alias (by decide) (by decide) item.asName rest follows
  rw [toList_render_item, List.append_assoc]
  simp only [readItem, e _ next, second, Option.bind_eq_bind, Option.bind_some]
  rfl

/-- A table or subquery is read back, with enough fuel. -/
def TableRef.ReadBack (table : TableRef) : Prop :=
  ∀ᶠ fuel in atTop, ReadsTo (readTable (readStatement fuel)) table.render.toList table.normal
    tableEnds

def Source.ReadBack (source : Source) : Prop :=
  ∀ᶠ fuel in atTop, ReadsTo (readSource (readStatement fuel) fuel) source.render.toList
    source.normal sourceEnds

def Statement.ReadBack (st : Statement) : Prop :=
  ∀ᶠ fuel in atTop, ReadsTo (readStatement fuel) st.render.toList st.normal [")"]

theorem toList_render_table (name : String) (asName : Option String) :
    (TableRef.table name asName).render.toList = (quotedName name).toList ++ aliasText asName := by
  cases asName with
  | none => simp only [TableRef.render, aliasText, Option.elim_none, List.append_nil]
  | some asName =>
    simp only [TableRef.render, aliasText, Option.elim_some, String.toList_append,
      List.append_assoc]

theorem readBack_table (name : String) (asName : Option String) :
    (TableRef.table name asName).ReadBack := by
  refine .of_forall fun fuel rest follows => ?_
  have quoted : ReadsTo (readQuoted '"') (quotedName name).toList name (" AS " :: tableEnds) :=
    readsTo_quoted _ name (by decide)
  have first := quoted _ (follows_optional " AS " tableEnds (by decide) (by decide) follows asName
    fun name => (quotedName name).toList)
  have second := readsTo_alias (by decide) (by decide) asName rest follows
  have name : after "(" ((quotedName name).toList ++ (aliasText asName ++ rest)) = none := by
    obtain ⟨more, text⟩ := isPrefix_quoted '"' name
    rw [quotedName, ← text]
    exact after_eq_none (w := "\"") (by decide) ⟨_, rfl⟩
  rw [toList_render_table, List.append_assoc]
  rw [aliasText] at name second ⊢
  simp only [readTable, name, first, second, Option.bind_eq_bind, Option.bind_some]
  rfl

theorem readBack_subquery {query : Statement} (h : query.ReadBack) (asName : String) :
    (TableRef.subquery query asName).ReadBack := by
  filter_upwards [h] with fuel read
  intro rest follows
  have ended : (") AS " : String).toList = ")".toList ++ " AS ".toList := rfl
  have quoted : ReadsTo (readQuoted '"') (quotedName asName).toList asName tableEnds :=
    readsTo_quoted _ asName (by decide)
  have first := read _ (follows_word (w := ")") (by decide)
    (" AS ".toList ++ ((quotedName asName).toList ++ rest)))
  have second := after_append ") AS " ((quotedName asName).toList ++ rest)
  simp only [TableRef.render, String.toList_append, ended, List.append_assoc, readTable,
    after_append] at second ⊢
  simp only [first, second, quoted rest follows, Option.bind_eq_bind, Option.bind_some]
  rfl

theorem readBack_item {table : TableRef} (h : table.ReadBack) : (Source.item table).ReadBack := by
  filter_upwards [h] with fuel read
  intro rest follows
  have single : readOneOf joinWord [.inner, .left] rest = none :=
    readOneOf_eq_none fun kind _ => after_of_follows follows (by cases kind <;> decide)
      (by cases kind <;> decide)
  simp only [Source.render, String.toList_append, List.append_assoc, readSource, after_append,
    read rest (follows.mono (by decide)), single, Option.bind_eq_bind, Option.bind_some]
  rfl

theorem readBack_join {left right : TableRef} (l : left.ReadBack) (r : right.ReadBack)
    (kind : JoinKind) {condition : Expr} (readable : condition.Readable) :
    (Source.join (.item left) kind right condition).ReadBack := by
  filter_upwards [l, r, readsTo_expr readable] with fuel readLeft readRight readCondition
  intro rest follows
  have first := readLeft _ (follows_word (w := joinWord kind) (by cases kind <;> decide)
    (right.render.toList ++ (" ON ".toList ++ (condition.render.toList ++ rest))))
  have second : readOneOf joinWord [.inner, .left] ((joinWord kind).toList ++
      (right.render.toList ++ (" ON ".toList ++ (condition.render.toList ++ rest)))) =
        some (kind, _) :=
    readOneOf_append (by cases kind <;> decide) (by cases kind <;> decide) _
  have third := readRight _ (follows_word (w := " ON ") (by decide)
    (condition.render.toList ++ rest))
  have fourth := readCondition rest (follows.mono (by decide))
  have text : (Source.join (.item left) kind right condition).render.toList ++ rest =
      " FROM ".toList ++ (left.render.toList ++ ((joinWord kind).toList ++ (right.render.toList ++
        (" ON ".toList ++ (condition.render.toList ++ rest))))) := by
    simp only [Source.render, joinWord, String.toList_append, List.append_assoc]
  simp only [text, readSource, after_append, first, second, third, fourth, Option.bind_eq_bind,
    Option.bind_some]
  rfl

theorem toList_whereClause (condition : Option Expr) : (whereClause condition).toList =
    condition.elim [] fun e => " WHERE ".toList ++ e.render.toList := by
  cases condition with
  | none => rfl
  | some e => simp only [whereClause, String.toList_append, Option.elim_some]

section
variable {read : Reader Statement} {fuel : Nat} {columns : List SelectItem} {source : Source}
  {condition : Option Expr} {groups : List Expr} {keys : List (Expr × Bool)}

theorem readsTo_columns (items : AllRead (readExpr fuel) fuel (columns.map (·.expr))) :
    ReadsTo (readList (readItem fuel) fuel) (commaList (columns.map SelectItem.render)).toList
      (columns.map SelectItem.normal) [" FROM "] := by
  have refused (rest : List Char) (follows : Follows [" FROM "] rest) :
      readItem fuel rest = none := by
    simp [readItem, readExpr_eq_none fuel follows (by decide)]
  refine readsTo_list [", ", " FROM "] (by decide) (by decide) (by decide) refused
    (fun item mem => readsTo_item (items.each _ (List.mem_map_of_mem mem))) ?_
  simpa using items.fewer

theorem readsTo_groups (h : AllRead (readExpr fuel) fuel groups) :
    ReadsTo (readClause " GROUP BY " (readList (readExpr fuel) fuel))
      (listClause " GROUP BY " (Expr.renderAll groups)).toList (Expr.normalAll groups)
      (" ORDER BY " :: selectEnds) := by
  refine readsTo_clause (by decide) (by decide) (fun empty => ?_)
    (readsTo_exprs (by decide) (fun rest follows => readExpr_eq_none fuel follows (by decide))
      (by decide) h)
  rw [Expr.renderAll_eq, List.map_eq_nil_iff] at empty
  rw [empty, Expr.normalAll]

theorem readsTo_order (h : AllRead (readExpr fuel) fuel (keys.map (·.1))) :
    ReadsTo (readClause " ORDER BY " (readList (readKey (readExpr fuel)) fuel))
      (listClause " ORDER BY " (Expr.renderKeys keys)).toList (Expr.normalKeys keys)
      selectEnds := by
  refine readsTo_clause (by decide) (by decide) (fun empty => ?_)
    (readsTo_keys (by decide) (fun rest follows => readExpr_eq_none fuel follows (by decide)) h)
  rw [Expr.renderKeys_eq, List.map_eq_nil_iff] at empty
  rw [empty, Expr.normalKeys]

/-- What is read as the source of a SELECT begins with FROM. -/
theorem from_isPrefix {cs : List Char} {result : Source × List Char}
    (h : readSource read fuel cs = some result) : " FROM ".toList <+: cs := by
  cases word : after " FROM " cs with
  | none => simp [readSource, word] at h
  | some rest => exact prefix_of_after word

theorem readsTo_clauses (items : AllRead (readExpr fuel) fuel (columns.map (·.expr)))
    (drawn : ReadsTo (readSource read fuel) source.render.toList source.normal sourceEnds)
    (filtered : AllRead (readExpr fuel) fuel condition.toList)
    (grouped : AllRead (readExpr fuel) fuel groups)
    (ordered : AllRead (readExpr fuel) fuel (keys.map (·.1))) :
    ReadsTo (readSelect read fuel)
      (Statement.select columns source condition groups keys).render.toList
      (Statement.select columns source condition groups keys).normal selectEnds := by
  intro rest follows
  have readCondition : ReadsTo (readOptional " WHERE " (readExpr fuel))
      (condition.elim [] fun e => " WHERE ".toList ++ e.render.toList)
      (condition.map Expr.normal) ([" GROUP BY ", " ORDER BY "] ++ selectEnds) :=
    readsTo_optional (by decide) (by decide) condition fun e mem =>
      (filtered.each e (Option.mem_toList.2 mem)).mono (by decide)
  rw [← toList_whereClause] at readCondition
  -- From the last clause to the first, what stands before each of them is followed by a known word.
  have beforeKeys : Follows (" ORDER BY " :: selectEnds)
      ((listClause " ORDER BY " (Expr.renderKeys keys)).toList ++ rest) :=
    follows_clause (by decide) (by decide) follows _
  have beforeGroups : Follows ([" GROUP BY ", " ORDER BY "] ++ selectEnds)
      ((listClause " GROUP BY " (Expr.renderAll groups)).toList ++
        ((listClause " ORDER BY " (Expr.renderKeys keys)).toList ++ rest)) :=
    follows_clause (by decide) (by decide) beforeKeys _
  have beforeCondition : Follows sourceEnds ((whereClause condition).toList ++
      ((listClause " GROUP BY " (Expr.renderAll groups)).toList ++
        ((listClause " ORDER BY " (Expr.renderKeys keys)).toList ++ rest))) := by
    rw [toList_whereClause]
    exact follows_optional " WHERE " _ (by decide) (by decide) beforeGroups condition _
  have source := drawn _ beforeCondition
  have columns := readsTo_columns items _ (.inr ⟨_, List.mem_singleton.2 rfl, from_isPrefix source⟩)
  simp only [Statement.render, String.toList_append, List.append_assoc, readSelect, after_append,
    columns, source, readCondition _ beforeGroups, readsTo_groups grouped _ beforeKeys,
    readsTo_order ordered _ follows, Option.bind_eq_bind, Option.bind_some]
  rfl

end

/-- What a SELECT is made of can be read back. -/
structure ReadableSelect (columns : List SelectItem) (source : Source) (condition : Option Expr)
    (groups : List Expr) (keys : List (Expr × Bool)) : Prop where
  items : ∀ item ∈ columns, item.expr.Readable
  source : source.ReadBack
  condition : ∀ e ∈ condition, e.Readable
  groups : ∀ e ∈ groups, e.Readable
  keys : ∀ k ∈ keys, k.1.Readable

section
variable {columns : List SelectItem} {source : Source} {condition : Option Expr}
  {groups : List Expr} {keys : List (Expr × Bool)}

theorem allRead_of_readable {es : List Expr} (h : ∀ e ∈ es, e.Readable) :
    ∀ᶠ fuel in atTop, AllRead (readExpr fuel) fuel es :=
  eventually_allRead fun e mem => readsTo_expr (h e mem)

theorem readsTo_select (h : ReadableSelect columns source condition groups keys) :
    ∀ᶠ fuel in atTop, ReadsTo (readSelect (readStatement fuel) fuel)
      (Statement.select columns source condition groups keys).render.toList
      (Statement.select columns source condition groups keys).normal selectEnds := by
  have items := allRead_of_readable (List.forall_mem_map.2 h.items)
  have conditions := allRead_of_readable fun e mem => h.condition e (Option.mem_toList.1 mem)
  have ordered := allRead_of_readable (List.forall_mem_map.2 h.keys)
  filter_upwards [items, h.source, conditions, allRead_of_readable h.groups, ordered]
    with fuel items source conditions groups ordered
  exact readsTo_clauses items source conditions groups ordered

theorem readBack_select (h : ReadableSelect columns source condition groups keys) :
    (Statement.select columns source condition groups keys).ReadBack := by
  refine eventually_succ ?_
  filter_upwards [readsTo_select h] with fuel read
  intro rest follows
  have last : after " UNION ALL " rest = none :=
    after_of_follows follows (by decide) (by decide)
  simp only [readStatement, read rest (follows.mono (by decide)), last, Option.bind_eq_bind,
    Option.bind_some]
  rfl

end

theorem toList_render_union (left right : Statement) :
    (Statement.union true left right).render.toList =
      left.render.toList ++ (" UNION ALL ".toList ++ right.render.toList) := by
  simp only [Statement.render, if_true, String.toList_append, List.append_assoc]

theorem readBack_union {lefts rights : List SelectItem} {left right : TableRef}
    (l : ReadableSelect lefts (.item left) none [] [])
    (r : ReadableSelect rights (.item right) none [] []) :
    (Statement.union true (.plain lefts left) (.plain rights right)).ReadBack := by
  refine eventually_succ ?_
  filter_upwards [readsTo_select l, readsTo_select r] with fuel readLeft readRight
  intro rest follows
  have first : readSelect (readStatement fuel) fuel ((Statement.plain lefts left).render.toList ++
      (" UNION ALL ".toList ++ ((Statement.plain rights right).render.toList ++ rest))) =
        some ((Statement.plain lefts left).normal, _) :=
    readLeft _ (follows_word (by decide) _)
  have second : readSelect (readStatement fuel) fuel
      ((Statement.plain rights right).render.toList ++ rest) =
        some ((Statement.plain rights right).normal, rest) :=
    readRight rest (follows.mono (by decide))
  simp only [toList_render_union, List.append_assoc, readStatement, first, after_append, second,
    Option.bind_eq_bind, Option.bind_some]
  rfl

end Crosstab.Sql
