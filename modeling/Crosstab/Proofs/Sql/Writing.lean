import Crosstab.Proofs.Query.Builders
import Crosstab.Proofs.Query.Typing
import Crosstab.Proofs.Sql.WellNamed

/-!
# What SQL text writes

Compiling a plan writes the names of its tables and columns and its constants, and nothing else of
it can fail. So a plan has SQL exactly if all of these can be written.
-/

namespace Crosstab

/-! ## Constants -/

/-- SQL text can hold a constant: a text without NUL, or a finite real. -/
def Scalar.writable : Scalar → Bool
  | text s => decide ('\x00' ∉ s.toList)
  | real v => v.isFinite
  | null | bool _ | int _ => true

mutual

def Expr.constants : Expr → List Scalar
  | const value _ => [value]
  | combine _ operands => Expr.constantsOf operands
  | column _ | rowNumber _ => []

def Expr.constantsOf : List Expr → List Scalar
  | [] => []
  | e :: rest => Expr.constants e ++ Expr.constantsOf rest

end

theorem Expr.constantsOf_eq_flatMap (es : List Expr) :
    Expr.constantsOf es = es.flatMap Expr.constants := by
  induction es with
  | nil => rfl
  | cons e es ih => rw [Expr.constantsOf, ih, List.flatMap_cons]

def Query.constants (node : Query) : List Scalar :=
  match node.plan with
  | .filter _ predicate _ => predicate.constants
  | .extend _ _ _ value _ => value.constants
  | _ => []

/-! ## Steps of the compiler -/

namespace Sql

/-- One of some names and constants cannot be written, and this is the error that it causes. -/
inductive Unwritten (names : List String) (values : List Scalar) : CompileError → Prop where
  | name {name : String} (mem : name ∈ names) (nul : '\x00' ∈ name.toList) :
      Unwritten names values (.nulInIdentifier name)
  | text {s : String} (mem : .text s ∈ values) (nul : '\x00' ∈ s.toList) :
      Unwritten names values .nulInText
  | real {v : Double} (mem : .real v ∈ values) (infinite : v.isFinite = false) :
      Unwritten names values (.notFinite v)

theorem Unwritten.mono {names others : List String} {values more : List Scalar} {e : CompileError}
    (h : Unwritten names values e) (sub : names ⊆ others) (sub' : values ⊆ more) :
    Unwritten others more e := by
  cases h with
  | name mem nul => exact .name (sub mem) nul
  | text mem nul => exact .text (sub' mem) nul
  | real mem infinite => exact .real (sub' mem) infinite

theorem Unwritten.not_writable {names : List String} {values : List Scalar} {e : CompileError}
    (h : Unwritten names values e) (named : ∀ name ∈ names, '\x00' ∉ name.toList)
    (valued : ∀ value ∈ values, value.writable = true) : False := by
  cases h with
  | name mem nul => exact named _ mem nul
  | text mem nul => simpa [Scalar.writable, nul] using valued _ mem
  | real mem infinite => simpa [Scalar.writable, infinite] using valued _ mem

/-- A step of the compiler writes some names and constants and nothing else: where it succeeds, all
of them can be written, and where it fails, one of them cannot. -/
structure Writes {α : Type} (x : Except CompileError α) (names : List String)
    (values : List Scalar) : Prop where
  named : ∀ a, x = .ok a → ∀ name ∈ names, '\x00' ∉ name.toList
  valued : ∀ a, x = .ok a → ∀ value ∈ values, value.writable = true
  error : ∀ e, x = .error e → Unwritten names values e

namespace Writes

variable {α β : Type} {x : Except CompileError α} {names others : List String}
  {values more : List Scalar}

theorem congr (h : Writes x names values) (same : ∀ name, name ∈ names ↔ name ∈ others)
    (same' : ∀ value, value ∈ values ↔ value ∈ more) : Writes x others more where
  named a ok name mem := h.named a ok name ((same name).2 mem)
  valued a ok value mem := h.valued a ok value ((same' value).2 mem)
  error e failed := (h.error e failed).mono (fun n => (same n).1) fun v => (same' v).1

theorem success {a : α} (h : x = .ok a) (named : ∀ name ∈ names, '\x00' ∉ name.toList)
    (valued : ∀ value ∈ values, value.writable = true) : Writes x names values where
  named _ _ := named
  valued _ _ := valued
  error e failed := by rw [h] at failed; cases failed

theorem failure {e : CompileError} (h : x = .error e) (unwritten : Unwritten names values e) :
    Writes x names values where
  named a ok := by rw [h] at ok; cases ok
  valued a ok := by rw [h] at ok; cases ok
  error e' failed := by
    rw [h] at failed
    cases failed
    exact unwritten

theorem of_ok {a : α} (h : x = .ok a) : Writes x [] [] :=
  success h (List.forall_mem_nil _) (List.forall_mem_nil _)

theorem bind {f : α → Except CompileError β} (first : Writes x names values)
    (rest : ∀ a, x = .ok a → Writes (f a) others more) :
    Writes (x >>= f) (names ++ others) (values ++ more) where
  named b ok := by
    obtain ⟨a, ha, hb⟩ := bind_eq_ok_iff.1 ok
    exact List.forall_mem_append.2 ⟨first.named a ha, (rest a ha).named b hb⟩
  valued b ok := by
    obtain ⟨a, ha, hb⟩ := bind_eq_ok_iff.1 ok
    exact List.forall_mem_append.2 ⟨first.valued a ha, (rest a ha).valued b hb⟩
  error e failed := by
    obtain h | ⟨a, ha, h⟩ := bind_eq_error_iff.1 failed
    · exact (first.error e h).mono (List.subset_append_left ..) (List.subset_append_left ..)
    · exact ((rest a ha).error e h).mono (List.subset_append_right ..)
        (List.subset_append_right ..)

/-- What puts the results together writes nothing. -/
theorem bind_pure {f : α → β} (first : Writes x names values) :
    Writes (x >>= fun a => pure (f a)) names values := by
  have both := first.bind fun a _ => of_ok (x := pure (f a)) rfl
  rwa [List.append_nil, List.append_nil] at both

theorem map {f : α → β} (h : Writes x names values) : Writes (x.map f) names values where
  named b ok := by
    obtain ⟨a, ha, -⟩ := map_eq_ok_iff.1 ok
    exact h.named a ha
  valued b ok := by
    obtain ⟨a, ha, -⟩ := map_eq_ok_iff.1 ok
    exact h.valued a ha
  error e failed := h.error e (map_eq_error_iff.1 failed)

theorem mapM {γ : Type} {f : γ → Except CompileError α} {l : List γ} {names : γ → List String}
    {values : γ → List Scalar} (each : ∀ c ∈ l, Writes (f c) (names c) (values c)) :
    Writes (l.mapM f) (l.flatMap names) (l.flatMap values) := by
  induction l with
  | nil => exact of_ok rfl
  | cons c l ih =>
    obtain ⟨first, others⟩ := List.forall_mem_cons.1 each
    rw [List.mapM_cons]
    exact first.bind fun _ _ => (ih others).bind_pure

/-- A step succeeds exactly if all that it writes can be written. -/
theorem exists_ok_iff (h : Writes x names values) : (∃ a, x = .ok a) ↔
    (∀ name ∈ names, '\x00' ∉ name.toList) ∧ ∀ value ∈ values, value.writable = true := by
  constructor
  · rintro ⟨a, ok⟩
    exact ⟨h.named a ok, h.valued a ok⟩
  · rintro ⟨named, valued⟩
    cases result : x with
    | ok a => exact ⟨a, rfl⟩
    | error e => exact ((h.error e result).not_writable named valued).elim

end Writes

/-! ## Names -/

section
variable {s r : Schema}

theorem writes_identifier {name : String} (named : name ≠ "") :
    Writes (identifier name) [name] [] := by
  by_cases nul : '\x00' ∈ name.toList
  · exact .failure (by simp [identifier, named, nul]) (.name List.mem_cons_self nul)
  · exact .success (by simp [identifier, named, nul]; rfl) (List.forall_mem_singleton.2 nul)
      (List.forall_mem_nil _)

theorem writes_id {c : Column} (hc : c ∈ s.columns) : Writes (identifier c.id) [c.id] [] :=
  writes_identifier (s.ids_nonempty c hc)

theorem idOf_mem {name : String} (has : s.has name = true) : idOf s name ∈ s.ids := by
  obtain ⟨c, hc⟩ := Option.isSome_iff_exists.1 has
  rw [idOf_eq hc]
  exact List.mem_map_of_mem (Schema.find?_eq_some_iff.1 hc).1

theorem writes_canonical {name : String} (has : s.has name = true) :
    Writes (canonical s name) [idOf s name] [] := by
  obtain ⟨c, hc⟩ := Option.isSome_iff_exists.1 has
  rw [idOf_eq hc, canonical, hc]
  exact writes_id (Schema.find?_eq_some_iff.1 hc).1

theorem writes_columns {α : Type} {f : Column → Except CompileError α} {columns : List Column}
    (each : ∀ c ∈ columns, Writes (f c) [c.id] []) :
    Writes (columns.mapM f) (columns.map (·.id)) [] :=
  (Writes.mapM each).congr (fun _ => by rw [List.map_eq_flatMap]) (by simp)

theorem writes_columnItems (s : Schema) : Writes (columnItems s) s.ids [] :=
  writes_columns fun _ hc => (writes_id hc).bind_pure

theorem writes_orderKeys {keys : List SortKey} (has : ∀ k ∈ keys, s.has k.column = true) :
    Writes (keys.mapM (orderKey s)) (keys.map fun k => idOf s k.column) [] :=
  (Writes.mapM fun k hk => (writes_canonical (has k hk)).bind_pure).congr
    (fun _ => by rw [List.map_eq_flatMap]) (by simp)

theorem writes_groupColumns {columns : List String} {groups : List Column}
    (found : List.Forall₂ (fun name c => s.find? name = some c) columns groups) :
    Writes (groupColumns s columns) (groups.map (·.id)) [] := by
  have has (name : String) (mem : name ∈ columns) : s.has name = true := by
    obtain ⟨c, -, hc⟩ := exists_of_mem_left found mem
    simp [Schema.has, hc]
  have ids : columns.map (idOf s) = groups.map (·.id) :=
    map_eq_map_of_forall₂ found fun _ _ => idOf_eq
  refine (Writes.mapM fun name hn => (writes_canonical (has name hn)).bind_pure).congr ?_ (by simp)
  intro id
  rw [← List.map_eq_flatMap, ids]

theorem writes_aggregateItems {aggregates : List AggregateColumn} {columns : List Column}
    (found : List.Forall₂ (fun a c => s.aggregated a = .ok c) aggregates columns) :
    Writes (aggregates.mapM (aggregateItem s)) (columns.map (·.id)) [] := by
  have ids : aggregates.map (fun a => idOf s a.column) = columns.map (·.id) := by
    refine map_eq_map_of_forall₂ found fun a c hc => ?_
    obtain ⟨input, type, hi, -, rfl⟩ := Schema.aggregated_eq_ok_iff.1 hc
    show idOf s a.column = input.id
    exact idOf_eq hi
  have each (a : AggregateColumn) (ha : a ∈ aggregates) :
      Writes (aggregateItem s a) [idOf s a.column] [] := by
    obtain ⟨c, -, hc⟩ := exists_of_mem_left found ha
    obtain ⟨input, type, hi, -⟩ := Schema.aggregated_eq_ok_iff.1 hc
    rw [idOf_eq hi, aggregateItem, hi]
    exact (writes_id (Schema.find?_eq_some_iff.1 hi).1).bind_pure
  refine (Writes.mapM each).congr (fun id => ?_) (by simp)
  rw [← List.map_eq_flatMap, ids]

theorem writes_renamedItem {old new : Column} (ho : old ∈ s.columns) (hn : new ∈ r.columns) :
    Writes (renamedItem old new) [old.id, new.id] [] := by
  unfold renamedItem
  by_cases same : old.id = new.id
  · rw [if_pos same]
    exact ((Writes.of_ok rfl).bind fun _ _ => (writes_id ho).bind_pure).congr
      (by simp [same]) (by simp)
  · rw [if_neg same]
    have asName : Writes (some <$> identifier new.id) [new.id] [] := (writes_id hn).map
    exact (asName.bind fun _ _ => (writes_id ho).bind_pure).congr (by simp [or_comm]) (by simp)

theorem writes_renamedItems (len : s.columns.length = r.columns.length) :
    Writes ((s.columns.zip r.columns).mapM fun (old, new) => renamedItem old new)
      (s.ids ++ r.ids) [] := by
  have each (pair : Column × Column) (mem : pair ∈ s.columns.zip r.columns) :
      Writes (renamedItem pair.1 pair.2) [pair.1.id, pair.2.id] [] :=
    writes_renamedItem (List.of_mem_zip mem).1 (List.of_mem_zip mem).2
  refine (Writes.mapM each).congr (fun id => ?_) (by simp)
  have lefts : s.ids = (s.columns.zip r.columns).map (·.1.id) := by
    rw [Schema.ids]
    conv_lhs => rw [← List.map_fst_zip (Nat.le_of_eq len), List.map_map]
    rfl
  have rights : r.ids = (s.columns.zip r.columns).map (·.2.id) := by
    rw [Schema.ids]
    conv_lhs => rw [← List.map_snd_zip (Nat.le_of_eq len.symm), List.map_map]
    rfl
  rw [lefts, rights, List.mem_append, List.mem_map, List.mem_map, List.mem_flatMap, ← exists_or]
  refine exists_congr fun pair => ?_
  rw [← and_or_left, List.mem_pair, eq_comm, eq_comm (a := id)]

theorem writes_joinItems {t : Schema} {left right : String} :
    Writes (t.columns.mapM (joinItem s left right)) t.ids [] :=
  writes_columns fun _ hc => (writes_id hc).bind_pure

theorem exists_joined (op : BinaryOp) {operands : List Expr} (nonempty : operands ≠ []) :
    ∃ e, joined op operands = some e := by
  cases operands with
  | nil => exact absurd rfl nonempty
  | cons first rest => exact ⟨_, rfl⟩

theorem writes_joinCondition {t : Schema} {left right : String} {nullSafe : Bool}
    {keys : List String} (derived : s.join r keys = .ok t) :
    Writes (joinCondition s r left right nullSafe keys) (keys.map (idOf s) ++ keys.map (idOf r))
      [] := by
  have each (key : String) (hk : key ∈ keys) :
      Writes (keyCondition s r left right (if nullSafe then .is else .eq) key)
        [idOf s key, idOf r key] [] := by
    obtain ⟨left, right⟩ := Schema.has_of_join derived hk
    exact (writes_canonical left).bind fun _ _ => (writes_canonical right).bind_pure
  have both : Writes (joinCondition s r left right nullSafe keys)
      (keys.flatMap (fun key => [idOf s key, idOf r key]) ++ [])
      (keys.flatMap (fun _ => []) ++ []) := by
    refine (Writes.mapM each).bind fun conditions made => ?_
    have nonempty : conditions ≠ [] := by
      rintro rfl
      have none : keys = [] := List.forall₂_nil_right_iff.1 (mapM_eq_ok_iff.1 made)
      exact (Schema.join_eq_ok_iff.1 derived).1 none
    obtain ⟨condition, hj⟩ := exists_joined .and nonempty
    rw [hj]
    exact Writes.of_ok rfl
  refine both.congr (fun id => ?_) (by simp)
  simp only [List.append_nil, List.mem_flatMap, List.mem_append, List.mem_map, List.mem_pair]
  constructor
  · rintro ⟨key, hk, rfl | rfl⟩
    · exact .inl ⟨key, hk, rfl⟩
    · exact .inr ⟨key, hk, rfl⟩
  · rintro (⟨key, hk, rfl⟩ | ⟨key, hk, rfl⟩)
    · exact ⟨key, hk, .inl rfl⟩
    · exact ⟨key, hk, .inr rfl⟩

/-! ## Expressions -/

/-- Operands in the right number can be combined. -/
theorem exists_combined {op : Operation} {operands : List Expr}
    (takes : op.takes operands.length = true) : ∃ e, combined op operands = .ok e := by
  have two (h : operands.length = 2) : ∃ l r, operands = [l, r] := List.length_eq_two.1 h
  have one (h : operands.length = 1) : ∃ e, operands = [e] := List.length_eq_one_iff.1 h
  cases op with
  | and =>
    obtain ⟨e, he⟩ : ∃ e, joined .and operands = some e :=
      exists_joined .and (by simpa [Operation.takes] using takes)
    exact ⟨e, by simp [combined, joinedOperands, he]⟩
  | or =>
    obtain ⟨e, he⟩ : ∃ e, joined .or operands = some e :=
      exists_joined .or (by simpa [Operation.takes] using takes)
    exact ⟨e, by simp [combined, joinedOperands, he]⟩
  | not | isNull | isNotNull =>
    obtain ⟨e, rfl⟩ := one (by simpa [Operation.takes] using takes)
    exact ⟨_, rfl⟩
  | _ =>
    obtain ⟨l, r, rfl⟩ := two (by simpa [Operation.takes] using takes)
    exact ⟨_, rfl⟩

theorem writes_constant (value : Scalar) (type : DataType) :
    Writes (constant value type) [] [value] := by
  have written {literal : Literal} (made : constant value type = .ok literal)
      (writable : value.writable = true) : Writes (constant value type) [] [value] :=
    .success made (List.forall_mem_nil _) (List.forall_mem_singleton.2 writable)
  cases value with
  | null | bool _ | int _ => exact written rfl rfl
  | real v =>
    by_cases finite : v.isFinite = true
    · exact written (if_pos finite) finite
    · exact .failure (if_neg finite) (.real List.mem_cons_self (Bool.eq_false_iff.2 finite))
  | text s =>
    by_cases nul : '\x00' ∈ s.toList
    · exact .failure (if_pos nul) (.text List.mem_cons_self nul)
    · exact written (if_neg nul) (decide_eq_true nul)

theorem length_sqls {es : List Crosstab.Expr} {compiled : List Expr}
    (h : Expr.sqls s es = .ok compiled) : compiled.length = es.length := by
  induction es generalizing compiled with
  | nil => cases h; rfl
  | cons e es ih =>
    obtain ⟨first, -, h⟩ := bind_eq_ok_iff.1 h
    obtain ⟨rest, hr, h⟩ := bind_eq_ok_iff.1 h
    rw [← pure_eq_ok_iff.1 h, List.length_cons, List.length_cons, ih hr]

mutual

/-- The SQL of an expression with a type writes its columns and constants. -/
theorem writes_sql {x : Crosstab.Expr} {type : DataType} (typed : x.type s = .ok type) :
    ∃ names, names ⊆ s.ids ∧ Writes (x.sql s) names x.constants := by
  cases x with
  | column name =>
    have has := Expr.has_of_type_column typed
    exact ⟨_, by simpa using idOf_mem has, (writes_canonical has).map⟩
  | const value declared => exact ⟨[], List.nil_subset _, (writes_constant value declared).map⟩
  | combine op operands =>
    obtain ⟨types, each, takes⟩ := Expr.type_combine_eq_ok_iff.1 typed
    obtain ⟨names, sub, operandsWritten⟩ := writes_sqls each
    have combine (compiled : List Expr) (hc : Expr.sqls s operands = .ok compiled) :
        Writes (combined op compiled) [] [] := by
      have count : compiled.length = types.length := (length_sqls hc).trans each.length_eq
      obtain ⟨_, made⟩ := exists_combined (count ▸ Expr.takes_of_combinedType takes)
      exact Writes.of_ok made
    have both := operandsWritten.bind combine
    rw [List.append_nil, List.append_nil] at both
    exact ⟨names, sub, both⟩
  | rowNumber keys =>
    have has := Expr.has_of_type_rowNumber typed
    refine ⟨_, ?_, (writes_orderKeys has).bind_pure⟩
    exact List.forall_mem_map.2 fun k hk => idOf_mem (has k hk)

theorem writes_sqls {xs : List Crosstab.Expr} {types : List DataType}
    (typed : List.Forall₂ (fun x type => x.type s = .ok type) xs types) :
    ∃ names, names ⊆ s.ids ∧ Writes (Expr.sqls s xs) names (Expr.constantsOf xs) := by
  cases typed with
  | nil => exact ⟨[], List.nil_subset _, Writes.of_ok rfl⟩
  | cons first rest =>
    obtain ⟨names, sub, firstWritten⟩ := writes_sql first
    obtain ⟨others, sub', restWritten⟩ := writes_sqls rest
    exact ⟨names ++ others, List.append_subset.2 ⟨sub, sub'⟩,
      firstWritten.bind fun _ _ => restWritten.bind_pure⟩

end

end

end Sql

/-! ## Plans -/

namespace Plan

open Sql

/-- The names that the top of a plan writes, apart from what it draws from. -/
def ownNames {s : Schema} : Plan s → List String
  | table name s _ => name :: s.ids
  | filter (s := s) .. | sort (s := s) .. => s.ids
  | project (t := t) .. | groupBy (t := t) .. | extend (t := t) .. => t.ids
  | mapColumns (s := s) (t := t) .. | mapColumnsAt (s := s) (t := t) .. => s.ids ++ t.ids
  | concat (s := s) (r := r) .. => s.ids ++ r.ids
  | join (s := s) (r := r) (t := t) _ _ keys _ _ _ =>
    t.ids ++ (keys.map (idOf s) ++ keys.map (idOf r))

end Plan

/-- The names that are written where a SELECT draws from a node: a table is drawn from by name. -/
def Query.drawnNames (node : Query) : List String :=
  match node.plan with
  | .table name _ _ => [name]
  | p => p.ownNames

namespace Plan

open Sql

/-- The names that are written where a SELECT draws from a plan. -/
def drawn {s : Schema} (p : Plan s) : List String := p.nodes.flatMap Query.drawnNames

/-- The names that the statement of a plan writes. -/
def spelled {s : Schema} (p : Plan s) : List String :=
  p.ownNames ++ p.inner.flatMap Query.drawnNames

def constants {s : Schema} (p : Plan s) : List Scalar := p.nodes.flatMap Query.constants

variable {s t : Schema}

/-- A plan writes all names of its columns. -/
theorem ids_subset_spelled (p : Plan s) : s.ids ⊆ p.spelled := by
  refine List.subset_append_of_subset_left _ ?_
  cases p with
  | table => exact List.subset_cons_self ..
  | project | filter | groupBy | sort | extend => exact List.Subset.refl _
  | mapColumns | mapColumnsAt => exact List.subset_append_right ..
  | join => exact List.subset_append_left ..
  | concat left right derived =>
    obtain ⟨len, each⟩ := Schema.concat_eq_ok_iff.1 derived
    rw [Schema.ids, Schema.ids_concatColumns len each]
    exact List.subset_append_left ..

theorem drawn_subset_spelled (p : Plan s) : p.drawn ⊆ p.spelled := by
  cases p with
  | table => exact List.cons_subset_cons _ (List.nil_subset _)
  | _ => exact List.Subset.refl _

theorem spelled_subset (p : Plan s) : p.spelled ⊆ s.ids ++ p.drawn := by
  cases p with
  | table name =>
    intro x hx
    simpa [spelled, drawn, ownNames, nodes, inner, Query.drawnNames, or_comm] using hx
  | _ => exact List.subset_append_right ..

section
variable {r : Schema} {left : Plan s} {right : Plan r}

theorem spelled_concat {derived : s.concat r = .ok t} :
    (concat left right derived).spelled = s.ids ++ r.ids ++ (left.drawn ++ right.drawn) :=
  congrArg (s.ids ++ r.ids ++ ·) List.flatMap_append

theorem constants_concat {derived : s.concat r = .ok t} :
    (concat left right derived).constants = left.constants ++ right.constants :=
  List.flatMap_append

theorem spelled_join {keys : List String} {kind : JoinKind} {nullSafe : Bool}
    {derived : s.join r keys = .ok t} :
    (join left right keys kind nullSafe derived).spelled =
      t.ids ++ (keys.map (idOf s) ++ keys.map (idOf r)) ++ (left.drawn ++ right.drawn) :=
  congrArg (t.ids ++ (keys.map (idOf s) ++ keys.map (idOf r)) ++ ·) List.flatMap_append

theorem constants_join {keys : List String} {kind : JoinKind} {nullSafe : Bool}
    {derived : s.join r keys = .ok t} :
    (join left right keys kind nullSafe derived).constants = left.constants ++ right.constants :=
  List.flatMap_append

end

/-- What a SELECT draws from is written by the name of a table or by a statement. -/
theorem writes_tableRef (source : Plan s) {number : Nat}
    (inside : Writes (source.statement (number + 1)) source.spelled source.constants) :
    Writes (source.tableRef number (source.statement (number + 1))) source.drawn
      source.constants := by
  cases source with
  | table name s named => exact (writes_identifier named).bind_pure
  | _ => exact inside.bind_pure

/-- A statement writes the names and the constants of its plan and nothing else. -/
theorem writes_statement (p : Plan s) (next : Nat) :
    Writes (p.statement next) p.spelled p.constants := by
  -- The number varies: the aliases of a right child come after those of the left one.
  induction p generalizing next with
  | table name s named =>
    refine ((writes_columnItems s).bind fun _ _ => (writes_identifier named).bind_pure).congr ?_ ?_
    · intro name
      simp [spelled, ownNames, inner, or_comm]
    · simp [constants, nodes, inner, Query.constants]
  | project source columns derived ih =>
    exact (writes_columnItems _).bind fun _ _ => (writes_tableRef source (ih _)).bind_pure
  | @filter s source predicate checked ih =>
    have typed := (Schema.checkPredicate_eq_ok_iff.1 checked).2
    obtain ⟨names, sub, predicateWritten⟩ := writes_sql typed
    refine ((writes_columnItems s).bind fun _ _ => (writes_tableRef source (ih _)).bind fun _ _ =>
      predicateWritten.bind_pure).congr ?_ ?_
    · intro name
      show _ ↔ name ∈ s.ids ++ source.drawn
      grind
    · intro value
      show _ ↔ value ∈ predicate.constants ++ source.constants
      grind
  | @groupBy s t source columns aggregates derived ih =>
    obtain ⟨-, groups, rest, ht, grouped, folded⟩ := Schema.groupBy_eq_ok_iff.1 derived
    have ids : t.ids = groups.map (·.id) ++ rest.map (·.id) := by
      rw [Schema.ids, ht, List.map_append]
    refine ((writes_groupColumns grouped).bind fun _ _ => (writes_aggregateItems folded).bind
      fun _ _ => (writes_tableRef source (ih _)).bind_pure).congr ?_ ?_
    · intro name
      show _ ↔ name ∈ t.ids ++ source.drawn
      grind
    · intro value
      show _ ↔ value ∈ source.constants
      grind
  | @sort s source keys checked ih =>
    have has := (Schema.checkSort_eq_ok_iff.1 checked).2
    have sub : keys.map (fun k => idOf s k.column) ⊆ s.ids :=
      List.forall_mem_map.2 fun k hk => idOf_mem (has k hk)
    refine ((writes_columnItems s).bind fun _ _ => (writes_tableRef source (ih _)).bind fun _ _ =>
      (writes_orderKeys has).bind_pure).congr ?_ ?_
    · intro name
      show _ ↔ name ∈ s.ids ++ source.drawn
      grind
    · intro value
      show _ ↔ value ∈ source.constants
      grind
  | @extend s t source column type value derived ih =>
    obtain ⟨-, actual, typed, -, columns⟩ := Schema.extend_eq_ok_iff.1 derived
    obtain ⟨names, sub, valueWritten⟩ := writes_sql typed
    have named : column ≠ "" := t.ids_nonempty (.named column type) (by simp [columns])
    have ids : t.ids = s.ids ++ [column] := by
      rw [Schema.ids, columns, List.map_append]
      rfl
    refine ((writes_columnItems s).bind fun _ _ => valueWritten.bind fun _ _ =>
      (writes_identifier named).bind fun _ _ => (writes_tableRef source (ih _)).bind_pure).congr
      ?_ ?_
    · intro name
      show _ ↔ name ∈ t.ids ++ source.drawn
      grind
    · intro c
      show _ ↔ c ∈ value.constants ++ source.constants
      grind
  | mapColumns source mapping derived ih =>
    have len := congrArg List.length (Schema.types_of_mapColumns derived)
    rw [List.length_map, List.length_map] at len
    exact (writes_renamedItems len.symm).bind fun _ _ => (writes_tableRef source (ih _)).bind_pure
  | mapColumnsAt source mapping derived ih =>
    have len := congrArg List.length (Schema.types_of_mapColumnsAt derived)
    rw [List.length_map, List.length_map] at len
    exact (writes_renamedItems len.symm).bind fun _ _ => (writes_tableRef source (ih _)).bind_pure
  | @concat s r t left right derived ihl ihr =>
    refine ((writes_columnItems s).bind fun _ _ => (writes_tableRef left (ihl _)).bind fun _ _ =>
      (writes_columnItems r).bind fun _ _ => (writes_tableRef right (ihr _)).bind_pure).congr ?_ ?_
    · intro name
      rw [spelled_concat]
      grind
    · intro value
      rw [constants_concat]
      grind
  | @join s r t left right keys kind nullSafe derived ihl ihr =>
    refine ((writes_tableRef left (ihl _)).bind fun _ _ => (writes_tableRef right (ihr _)).bind
      fun _ _ => writes_joinItems.bind fun _ _ => (writes_joinCondition derived).bind_pure).congr
      ?_ ?_
    · intro name
      rw [spelled_join]
      grind
    · intro value
      rw [constants_join]
      grind

end Plan

namespace Query

theorem writes_sql (q : Query) : Sql.Writes q.sql q.plan.spelled q.plan.constants :=
  (q.plan.writes_statement 0).map

end Query

end Crosstab
