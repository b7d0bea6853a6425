import Crosstab.Proofs.Sql.Tokens
import Crosstab.Proofs.Store.Imports

/-!
# Databases in memory are lawful

The engine in memory reads the statements of a store from their texts, and does with them what a
store relies on. It keeps of a cell what `Cell.settled` says.
-/

namespace Crosstab

open Sql (ReadsTo after readQuoted readQuoted_quoted)

namespace TableStatement

/-! ## Texts -/

theorem length_le_commaList (parts : List String) :
    parts.length ≤ (Sql.commaList parts).toList.length + 1 := by
  have two : ", ".toList.length = 2 := by decide
  cases parts with
  | nil => exact Nat.zero_le _
  | cons part parts =>
    have each : parts.length ≤ (parts.flatMap fun p => ", ".toList ++ p.toList).length := by
      induction parts with
      | nil => exact Nat.le_refl _
      | cons p parts ih =>
        rw [List.flatMap_cons, List.length_append, List.length_append, List.length_cons]
        omega
    rw [Sql.toList_commaList, List.length_append, List.length_cons]
    omega

theorem readsTo_word (type : DataType) :
    ReadsTo readWord type.sqlName.toList type.sqlName [", ", ")"] := by
  intro rest follows
  have stop := Sql.head?_of_follows (p := fun c => !c.isUpper) follows (by decide)
  have letters : type.sqlName.toList.all Char.isUpper = true := by cases type <;> decide
  have some : type.sqlName.toList ≠ [] := by cases type <;> decide
  simp [readWord, Sql.readWhile_append letters stop, some]

theorem readsTo_declaration {c : StoredColumn} (words : c.Worded) :
    ReadsTo readDeclaration c.declaration.toList c [", ", ")"] := by
  have text : c.declaration.toList = (Sql.quotedName c.name).toList ++
      c.type.elim [] fun word => " ".toList ++ word.toList := by
    rw [StoredColumn.declaration]
    cases c.type <;> simp
  have name : ReadsTo (readQuoted '"') (Sql.quotedName c.name).toList c.name [" ", ", ", ")"] :=
    Sql.readsTo_quoted '"' c.name (by decide)
  have type : ReadsTo (Sql.readOptional " " readWord)
      (c.type.elim [] fun word => " ".toList ++ word.toList) (c.type.map fun word => word)
      [", ", ")"] := by
    refine Sql.readsTo_optional (by decide) (by decide) c.type fun word hw => ?_
    obtain ⟨type, rfl⟩ := words word hw
    exact readsTo_word type
  intro rest follows
  have next : Sql.Follows [" ", ", ", ")"]
      ((c.type.elim [] fun word => " ".toList ++ word.toList) ++ rest) :=
    Sql.follows_optional " " [", ", ")"] (by decide) (by decide) follows c.type fun word =>
      word.toList
  simp only [readDeclaration, text, List.append_assoc, name _ next, type _ follows,
    Option.bind_eq_bind, Option.bind_some, Option.map_id']
  rfl

theorem readsTo_parameter : ReadsTo readParameter "?".toList () [", ", ")"] := by
  intro rest _
  rw [readParameter, Sql.after_append, Option.map_some]

/-- A list between parentheses. -/
theorem readsTo_parenthesized {α β : Type} {item : Sql.Reader β} {text : α → String}
    {value : α → β} (as : List α)
    (none : ∀ rest, Sql.Follows [")"] rest → item rest = none)
    (each : ∀ a ∈ as, ReadsTo item (text a).toList (value a) [", ", ")"]) {fuel : Nat}
    (long : as.length < fuel) :
    ReadsTo (Sql.readList item fuel) (Sql.commaList (as.map text)).toList (as.map value) [")"] :=
  Sql.readsTo_list [", ", ")"] (by decide) (by decide) (by decide) none each long

section
variable {name : String} {fuel : Nat}

/-- A name that a word follows. -/
theorem readQuoted_name (word : String) (apart : word.toList.head?.any (· != '"') = true)
    (rest : List Char) : readQuoted '"' ((Sql.quotedName name).toList ++ (word.toList ++ rest)) =
      some (name, word.toList ++ rest) :=
  Sql.readsTo_quoted '"' name (by simpa using apart) _
    (Sql.follows_word (List.mem_singleton_self word) rest)

/-- A name at the end. -/
theorem readQuoted_last : readQuoted '"' (Sql.quotedName name).toList = some (name, []) := by
  have read := Sql.readsTo_quoted '"' name (List.forall_mem_nil _) [] (.inl rfl)
  rwa [List.append_nil] at read

theorem after_last (word : String) : after word word.toList = some [] := by
  have read := Sql.after_append word []
  rwa [List.append_nil] at read

theorem readCreate_createSql {columns : List StoredColumn} (words : ∀ c ∈ columns, c.Worded)
    (long : columns.length < fuel) :
    readCreate fuel (createSql name columns).toList = some (create name columns, []) := by
  have none (rest : List Char) (follows : Sql.Follows [")"] rest) :
      readDeclaration rest = none := by
    rw [readDeclaration, Sql.readQuoted_eq_none follows (by decide)]
    rfl
  have listed := readsTo_parenthesized columns none
    (fun c hc => readsTo_declaration (words c hc)) long
    ")".toList (.inr ⟨")", List.mem_singleton_self _, List.prefix_rfl⟩)
  rw [List.map_id'] at listed
  simp only [readCreate, createSql, String.toList_append, List.append_assoc, Sql.after_append,
    readQuoted_name " (" (by decide), listed, after_last, Option.bind_eq_bind, Option.bind_some]
  rfl

theorem readInsert_insertSql {width : Nat} (long : width < fuel) :
    readInsert fuel (insertSql name width).toList = some (insert name width, []) := by
  have none (rest : List Char) (follows : Sql.Follows [")"] rest) : readParameter rest = none := by
    rw [readParameter, Sql.after_of_follows follows (by decide) (by decide)]
    rfl
  have listed := readsTo_parenthesized (List.replicate width ()) none
    (fun _ _ => readsTo_parameter) (by simpa using long)
    ")".toList (.inr ⟨")", List.mem_singleton_self _, List.prefix_rfl⟩)
  rw [List.map_replicate, List.map_replicate] at listed
  simp only [readInsert, insertSql, String.toList_append, List.append_assoc, Sql.after_append,
    readQuoted_name " VALUES (" (by decide), listed, after_last, Option.bind_eq_bind,
    Option.bind_some, List.length_replicate]
  rfl

theorem readScan_scanSql {columns : List String} (long : columns.length < fuel) :
    readScan fuel (scanSql name columns).toList = some ((name, columns), []) := by
  have none (rest : List Char) (follows : Sql.Follows [" FROM "] rest) :
      readQuoted '"' rest = none := Sql.readQuoted_eq_none follows (by decide)
  have each (c : String) (_ : c ∈ columns) :
      ReadsTo (readQuoted '"') (Sql.quotedName c).toList c [", ", " FROM "] :=
    Sql.readsTo_quoted '"' c (by decide)
  have listed := Sql.readsTo_list [", ", " FROM "] (by decide) (by decide) (by decide) none each
    long (" FROM ".toList ++ (Sql.quotedName name).toList)
    (Sql.follows_word (List.mem_singleton_self _) _)
  rw [List.map_id'] at listed
  simp only [readScan, scanSql, String.toList_append, List.append_assoc, Sql.after_append, listed,
    readQuoted_last, Option.bind_eq_bind, Option.bind_some]
  rfl

/-! ## Statements -/

theorem ofSql_eq {sql : String} {statement : TableStatement}
    (read : read sql.toList.length sql.toList = some (statement, [])) :
    ofSql sql = if '\x00' ∈ sql.toList then none else some statement := by
  rw [ofSql, read]

theorem ofSql_createSql {columns : List StoredColumn} (words : ∀ c ∈ columns, c.Worded) :
    ofSql (createSql name columns) =
      if '\x00' ∈ (createSql name columns).toList then none else some (create name columns) := by
  have long : columns.length < (createSql name columns).toList.length := by
    have list := length_le_commaList (columns.map StoredColumn.declaration)
    simp [createSql] at list ⊢
    omega
  apply ofSql_eq
  rw [read, readCreate_createSql words long]
  rfl

theorem ofSql_insertSql {width : Nat} : ofSql (insertSql name width) =
    if '\x00' ∈ (insertSql name width).toList then none else some (insert name width) := by
  have long : width < (insertSql name width).toList.length := by
    have list := length_le_commaList (List.replicate width "?")
    simp [insertSql] at list ⊢
    omega
  have front : "INSERT INTO ".toList <+: (insertSql name width).toList := by
    simp only [insertSql, String.toList_append, List.append_assoc]
    exact List.prefix_append ..
  have other (fuel : Nat) : readCreate fuel (insertSql name width).toList = none := by
    rw [readCreate, Sql.after_eq_none (by decide) front]
    rfl
  apply ofSql_eq
  rw [read, other, readInsert_insertSql long]
  rfl

theorem ofSql_scanSql {columns : List String} (nonempty : columns ≠ []) :
    ofSql (scanSql name columns) =
      if '\x00' ∈ (scanSql name columns).toList then none else some (scan name columns) := by
  have long : columns.length < (scanSql name columns).toList.length := by
    have list := length_le_commaList (columns.map Sql.quotedName)
    simp [scanSql] at list ⊢
    omega
  -- the quote of the first column tells this statement from one that counts rows
  have front : "SELECT \"".toList <+: (scanSql name columns).toList := by
    obtain ⟨c, columns, rfl⟩ := List.exists_cons_of_ne_nil nonempty
    simp [scanSql, Sql.toList_commaList, Sql.quotedName, Sql.quoted]
  have other (fuel : Nat) : readCreate fuel (scanSql name columns).toList = none ∧
      readInsert fuel (scanSql name columns).toList = none ∧
      readCount fuel (scanSql name columns).toList = none := by
    rw [readCreate, readInsert, readCount, Sql.after_eq_none (by decide) front,
      Sql.after_eq_none (by decide) front, Sql.after_eq_none (by decide) front]
    exact ⟨rfl, rfl, rfl⟩
  obtain ⟨noCreate, noInsert, noCount⟩ := other (scanSql name columns).toList.length
  apply ofSql_eq
  rw [read, noCreate, noInsert, noCount, readScan_scanSql long]
  rfl

end

end TableStatement

/-! ## Databases -/

namespace Database

variable {d d' : Database} {name : String}

theorem table?_congr {other : String} (h : SameName name other) :
    d.table? name = d.table? other := by
  have same : (fun t : String × StoredTable => decide (SameName t.1 name)) =
      fun t => decide (SameName t.1 other) :=
    funext fun _ => decide_eq_decide.2 (sameName_congr h)
  rw [table?, table?, same]

theorem puts_create {columns : List StoredColumn} (done : d.create name columns = .ok d') :
    d.table? name = none ∧ ∃ t, t.columns = columns ∧ t.rows = [] ∧
      SqlEngine.Puts table? d d' name t := by
  unfold create at done
  split at done
  · next sound =>
    split at done
    · cases done
    · next free =>
      cases done
      simp only [Bool.or_eq_true, not_or, Option.not_isSome_iff_eq_none] at free
      refine ⟨free.2, ⟨columns, [], sound.1, sound.2⟩, rfl, rfl, fun other => ?_⟩
      by_cases same : SameName name other
      · have none := (table?_congr same).symm.trans free.2
        rw [table?, Option.map_eq_none_iff] at none
        simp [table?, List.find?_append, none, same]
      · simp [table?, List.find?_append, same]
  · cases done

theorem puts_insert {t : StoredTable} {width : Nat} {row : List Cell}
    (found : d.table? name = some t) (done : d.insert name width row = .ok d') :
    row.length = t.columns.length ∧ SqlEngine.Puts table? d d' name (t.insert row) := by
  simp only [insert, found] at done
  split at done
  · next fits =>
    cases done
    refine ⟨fits.1.trans fits.2, fun other => ?_⟩
    -- the tables keep their names, so the same one is found
    have place : ({ d with tables := d.tables.map fun t =>
        (t.1, if SameName t.1 name then t.2.insert row else t.2) } : Database).table? other =
        (d.tables.find? fun t => decide (SameName t.1 other)).map fun t =>
          if SameName t.1 name then t.2.insert row else t.2 := by
      rw [table?, List.find?_map, Option.map_map]
      rfl
    rw [place]
    by_cases same : SameName name other
    · rw [table?_congr same, table?, Option.map_eq_some_iff] at found
      obtain ⟨entry, first, rfl⟩ := found
      have named : SameName entry.1 other := by simpa using List.find?_some first
      rw [first, Option.map_some, if_pos same, if_pos (named.trans same.symm)]
    · rw [if_neg same, table?]
      cases first : d.tables.find? fun t => decide (SameName t.1 other) with
      | none => rfl
      | some entry =>
        have named : SameName entry.1 other := by simpa using List.find?_some first
        have apart : ¬ SameName entry.1 name := fun h => same (h.symm.trans named)
        rw [Option.map_some, Option.map_some, if_neg apart]
  · cases done

/-- A column is found by its name. -/
theorem lookup_of_isColumn {t : StoredTable} {place : Nat} (h : t.IsColumn name place)
    (number : Nat) (row : List Cell) : t.lookup name number row = row.getD place .null := by
  obtain ⟨c, hc, named⟩ := h
  obtain ⟨inside, rfl⟩ := List.getElem?_eq_some_iff.1 hc
  have found : t.columns.findIdx? (fun c => decide (SameName c.name name)) = some place := by
    rw [List.findIdx?_eq_some_iff_getElem]
    refine ⟨inside, by simpa using named, fun j before => ?_⟩
    have apart := List.pairwise_iff_getElem.1 (List.pairwise_map.1 t.distinct) j place
      (Nat.lt_trans before inside) inside before
    simpa using fun same : SameName _ name => apart (same.trans named.symm)
  rw [StoredTable.lookup, found]

theorem select_of_isColumn {t : StoredTable} {names : List String} {places : List Nat}
    (columns : List.Forall₂ t.IsColumn names places) :
    t.select names = t.rows.map fun row => places.map fun place => row.getD place .null := by
  have rows : t.rows.zipIdx.map Prod.fst = t.rows := List.zipIdx_map_fst ..
  conv_rhs => rw [← rows, List.map_map]
  refine List.map_congr_left fun pair _ => ?_
  exact map_eq_map_of_forall₂ columns fun name place h => lookup_of_isColumn h _ _

/-! ## The laws -/

theorem nul_mem_quotedName_iff : '\x00' ∈ (Sql.quotedName name).toList ↔ '\x00' ∈ name.toList :=
  Sql.mem_quoted_iff (by decide)

theorem nul_mem_declaration_iff {c : StoredColumn} (words : c.Worded) :
    '\x00' ∈ c.declaration.toList ↔ '\x00' ∈ c.name.toList := by
  rw [StoredColumn.declaration]
  split
  · next word known =>
    obtain ⟨type, rfl⟩ := words word known
    have plain : '\x00' ∉ type.sqlName.toList := by cases type <;> decide
    simp [nul_mem_quotedName_iff, plain]
  · exact nul_mem_quotedName_iff

theorem nul_not_mem_createSql_iff {columns : List StoredColumn}
    (words : ∀ c ∈ columns, c.Worded) :
    '\x00' ∉ (createSql name columns).toList ↔ Clean (name :: columns.map (·.name)) := by
  have listed : '\x00' ∉ (Sql.commaList (columns.map StoredColumn.declaration)).toList ↔
      Clean (columns.map (·.name)) := by
    rw [Sql.mem_commaList_iff (by decide), Clean, List.forall_mem_map, not_exists]
    simp only [not_and, List.forall_mem_map]
    exact forall₂_congr fun c hc => not_congr (nul_mem_declaration_iff (words c hc))
  rw [Clean, List.forall_mem_cons, ← Clean, ← listed]
  simp [createSql, nul_mem_quotedName_iff]

theorem nul_not_mem_insertSql_iff {width : Nat} :
    '\x00' ∉ (insertSql name width).toList ↔ '\x00' ∉ name.toList := by
  have listed : '\x00' ∉ (Sql.commaList (List.replicate width "?")).toList := by
    rw [Sql.mem_commaList_iff (by decide)]
    rintro ⟨_, parameter, nul⟩
    rw [List.eq_of_mem_replicate parameter] at nul
    exact absurd nul (by decide)
  simp [insertSql, listed, nul_mem_quotedName_iff]

theorem nul_not_mem_scanSql {names : List String} (clean : Clean (name :: names)) :
    '\x00' ∉ (scanSql name names).toList := by
  have quoted {n : String} (hn : n ∈ name :: names) : '\x00' ∉ (Sql.quotedName n).toList :=
    fun nul => clean n hn (nul_mem_quotedName_iff.1 nul)
  have list : '\x00' ∉ (Sql.commaList (names.map Sql.quotedName)).toList := by
    rw [Sql.mem_commaList_iff (by decide)]
    rintro ⟨_, listed, nul⟩
    obtain ⟨n, hn, rfl⟩ := List.mem_map.1 listed
    exact quoted (List.mem_cons_of_mem _ hn) nul
  simp [scanSql, list, quoted List.mem_cons_self]

/-- A statement that was run was read from its text. -/
theorem exists_of_execute {sql : String} {row : List Cell} (done : d.execute sql row = .ok d') :
    ∃ statement, TableStatement.ofSql sql = some statement ∧
      (∀ name columns, statement = .create name columns → d.create name columns = .ok d') ∧
      (∀ name width, statement = .insert name width → d.insert name width row = .ok d') := by
  unfold execute at done
  split at done
  · cases done
  · split at done
    · next statement read => exact ⟨_, read, fun _ _ same => by cases same; exact done, nofun⟩
    · next statement read => exact ⟨_, read, nofun, fun _ _ same => by cases same; exact done⟩
    · cases done

/-- The engine in memory does what a store relies on. -/
theorem lawful : SqlEngine.Lawful table? Cell.settled where
  names := table?_congr
  create {d d' name columns} words done := by
    obtain ⟨statement, read, made, -⟩ := exists_of_execute done
    rw [TableStatement.ofSql_createSql words] at read
    split at read
    · cases read
    · next clean =>
      refine ⟨(nul_not_mem_createSql_iff words).1 clean, ?_⟩
      exact puts_create (made _ _ (Option.some.inj read).symm)
  insert {d d' name t row} found done := by
    obtain ⟨statement, read, -, inserted⟩ := exists_of_execute done
    rw [TableStatement.ofSql_insertSql] at read
    split at read
    · cases read
    · obtain ⟨width, puts⟩ := puts_insert found (inserted _ _ (Option.some.inj read).symm)
      exact ⟨width, t.insert row, rfl, rfl, puts⟩
  scan {d name t names places} found nonempty narrow clean columns := by
    have width : isWidth names.length = true := by
      have wide := t.wide
      have some := List.length_pos_iff.2 nonempty
      simp only [isWidth, Bool.and_eq_true, decide_eq_true_eq] at wide ⊢
      omega
    change d.query (scanSql name names) = _
    rw [query, TableStatement.ofSql_scanSql nonempty, if_neg (nul_not_mem_scanSql clean)]
    change d.select name names = _
    simp only [select, found, width, if_true, select_of_isColumn columns]

/-! ## Admission -/

theorem exists_execute_createSql {columns : List StoredColumn} (writable : d.readOnly = false)
    (words : ∀ c ∈ columns, c.Worded)
    (clean : Clean (name :: columns.map (·.name))) (wide : isWidth columns.length = true)
    (distinct : (columns.map fun c => foldCase c.name).Nodup) (other : isOwnName name = false)
    (new : d.table? name = none) :
    ∃ d', SqlEngine.execute d (createSql name columns) [] = .ok d' ∧ d'.readOnly = false := by
  refine ⟨{ d with tables := d.tables ++ [(name, ⟨columns, [], wide, distinct⟩)] }, ?_, writable⟩
  have read := @TableStatement.ofSql_createSql name columns words
  rw [if_neg ((nul_not_mem_createSql_iff words).2 clean)] at read
  change d.execute (createSql name columns) [] = _
  unfold execute
  rw [if_neg (by simp [writable]), read]
  change d.create name columns = _
  rw [create, dif_pos ⟨wide, distinct⟩, other, new]
  rfl

theorem exists_execute_insertSql {t : StoredTable} {row : List Cell} (writable : d.readOnly = false)
    (clean : '\x00' ∉ name.toList) (found : d.table? name = some t)
    (width : row.length = t.columns.length) :
    ∃ d', SqlEngine.execute d (insertSql name t.columns.length) row = .ok d' ∧
      d'.readOnly = false := by
  have inserted : ∃ d', d.insert name t.columns.length row = .ok d' ∧ d'.readOnly = false := by
    simp only [insert, found, width, and_self, if_true]
    exact ⟨_, rfl, writable⟩
  have read := @TableStatement.ofSql_insertSql name t.columns.length
  rw [if_neg (nul_not_mem_insertSql_iff.2 clean)] at read
  change ∃ d', d.execute (insertSql name t.columns.length) row = .ok d' ∧ d'.readOnly = false
  unfold execute
  rw [if_neg (by simp [writable]), read]
  exact inserted

theorem exists_insertAll {t : StoredTable} {rows : List (List Cell)} (writable : d.readOnly = false)
    (clean : '\x00' ∉ name.toList) (found : d.table? name = some t)
    (widths : ∀ row ∈ rows, row.length = t.columns.length) :
    ∃ d', rows.foldlM (fun d row => SqlEngine.execute d (insertSql name t.columns.length) row) d =
      .ok d' ∧ d'.readOnly = false := by
  induction rows generalizing d t with
  | nil => exact ⟨d, rfl, writable⟩
  | cons row rows ih =>
    obtain ⟨width, others⟩ := List.forall_mem_cons.1 widths
    obtain ⟨next, first, writable⟩ := exists_execute_insertSql writable clean found width
    obtain ⟨-, t', columns, -, puts⟩ := lawful.insert found first
    rw [← columns] at others first ⊢
    obtain ⟨d', rest, writable⟩ := ih writable puts.self others
    refine ⟨d', ?_, writable⟩
    rw [List.foldlM_cons, first]
    exact rest

/-- A table can be made and filled in memory if its name is new and its columns are those of a
table. -/
theorem exists_fill {columns : List StoredColumn} {rows : List (List Cell)}
    (writable : d.readOnly = false) (words : ∀ c ∈ columns, c.Worded)
    (clean : Clean (name :: columns.map (·.name))) (wide : isWidth columns.length = true)
    (distinct : (columns.map fun c => foldCase c.name).Nodup) (other : isOwnName name = false)
    (new : d.table? name = none) (widths : ∀ row ∈ rows, row.length = columns.length) :
    ∃ d', SqlEngine.fill d name columns rows = .ok d' ∧ d'.readOnly = false := by
  obtain ⟨made, first, writable⟩ :=
    exists_execute_createSql writable words clean wide distinct other new
  obtain ⟨-, -, t, rfl, -, puts⟩ := lawful.create words first
  obtain ⟨d', rest, writable⟩ :=
    exists_insertAll writable (clean name List.mem_cons_self) puts.self widths
  refine ⟨d', ?_, writable⟩
  rw [SqlEngine.fill, first]
  exact rest

end Database

namespace Store

/-- A table that a database in memory can hold under a name. -/
structure Admissible (name : String) (table : Table) : Prop where
  named : name ≠ ""
  clean : Clean (name :: table.schema.ids)
  other : Database.isOwnName name = false
  wide : isWidth table.schema.columns.length = true
  widths : ∀ row ∈ table.rows, row.length = table.schema.columns.length

variable {s : Store Database} (writable : s.database.readOnly = false)
include writable

theorem exists_importTable {name : String} {table : Table} (admissible : Admissible name table)
    (new : s.database.table? name = none) :
    ∃ q s', s.importTable name table = .ok (q, s') ∧ s'.database.readOnly = false := by
  have length : (declared table.schema).length = table.schema.columns.length := List.length_map ..
  have distinct : ((declared table.schema).map fun c => foldCase c.name).Nodup := by
    rw [declared, List.map_map]
    exact table.schema.ids_distinct
  have widths : ∀ row ∈ table.rows.map (·.map Cell.ofScalar),
      row.length = (declared table.schema).length := by
    rw [List.forall_mem_map, length]
    intro row hr
    rw [List.length_map]
    exact admissible.widths row hr
  obtain ⟨d', filled, writable⟩ := Database.exists_fill writable (words_declared table.schema)
    (names_declared table.schema ▸ admissible.clean) (length ▸ admissible.wide) distinct
    admissible.other new widths
  have built : (Query.table name table.schema).mapError Error.build =
      .ok ⟨table.schema, .table name table.schema admissible.named⟩ :=
    mapError_eq_ok_iff.2 (Query.table_eq_ok_iff.2 ⟨admissible.named, rfl⟩)
  have added : s.add name (declared table.schema) (table.rows.map (·.map Cell.ofScalar))
      table.schema =
        .ok (({ s with database := d' } : Store Database).register name table.schema) := by
    rw [add, filled]
  exact ⟨_, _, bind_eq_ok_iff.2 ⟨_, built, bind_eq_ok_iff.2 ⟨_, added, rfl⟩⟩, writable⟩

/-- Tables are imported one after the other into memory if their names are new and differ as
names. -/
theorem exists_importAll {imports : List (String × Table)}
    (admissible : ∀ i ∈ imports, Admissible i.1 i.2)
    (new : ∀ i ∈ imports, s.database.table? i.1 = none)
    (apart : imports.Pairwise fun i j => ¬ SameName i.1 j.1) :
    ∃ s', s.importAll imports = .ok s' := by
  induction imports generalizing s with
  | nil => exact ⟨s, rfl⟩
  | cons first imports ih =>
    obtain ⟨here, later⟩ := List.forall_mem_cons.1 admissible
    obtain ⟨newHere, newLater⟩ := List.forall_mem_cons.1 new
    obtain ⟨others, apart⟩ := List.pairwise_cons.1 apart
    obtain ⟨q, next, done, writable⟩ := exists_importTable writable here newHere
    obtain ⟨-, -, -, ⟨t, -, -, puts⟩, -⟩ := importTable_eq_ok Database.lawful done
    obtain ⟨s', rest⟩ := ih writable later
      (fun i hi => by rw [puts, if_neg (others i hi), newLater i hi]) apart
    exact ⟨s', bind_eq_ok_iff.2 ⟨next, map_eq_ok_iff.2 ⟨_, done, rfl⟩, rest⟩⟩

end Store

end Crosstab
