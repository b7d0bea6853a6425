import Mathlib.Data.List.Perm.Basic
import Crosstab.Proofs.Query.Typing
import Crosstab.Proofs.Query.Unsigned

/-!
# Spellings of column references

Operators refer to columns by name, and a name may be spelled in any case. Where a reference is
found, another spelling of it finds the same column; so the schema rules give the same schemas.

* `Expr.Respelled` and `Head.Respelled` say that expressions and operators differ only in how they
  spell their references;
* `Outline` is a tree of operators that need not fit together, `Outline.build` the query that they
  make if they do, `Outline.Respelled` a tree with other spellings;
* `Schema.mapColumns_respelled`: the order of renamings does not matter where each has a column of
  its own; every other rule has a lemma beside it.
-/

namespace Crosstab

section
variable {α β : Type} {R : α → β → Prop} {l : List α} {r : List β}

theorem forall₂_nil_iff (h : List.Forall₂ R l r) : r = [] ↔ l = [] := by
  rw [← List.length_eq_zero_iff, ← h.length_eq, List.length_eq_zero_iff]

/-- Computations that agree member by member agree as a whole. -/
theorem mapM_congr_of_forall₂ {ε γ : Type} {f : α → Except ε γ} {g : β → Except ε γ}
    (h : List.Forall₂ R l r) (agree : ∀ a ∈ l, ∀ b, R a b → g b = f a) : r.mapM g = l.mapM f := by
  induction h with
  | nil => rfl
  | cons first _ ih =>
    rw [List.mapM_cons, List.mapM_cons, agree _ List.mem_cons_self _ first,
      ih fun a mem => agree a (List.mem_cons_of_mem _ mem)]

/-- What each pair has a member for, the lists have a list for. -/
theorem exists_forall₂_of_forall₂ {γ : Type} {P : β → γ → Prop} {Q : α → γ → Prop}
    (h : List.Forall₂ R l r) (each : ∀ a ∈ l, ∀ b, R a b → ∃ c, P b c ∧ Q a c) :
    ∃ m, List.Forall₂ P r m ∧ List.Forall₂ Q l m := by
  induction h with
  | nil => exact ⟨[], .nil, .nil⟩
  | cons first _ ih =>
    obtain ⟨c, hp, hq⟩ := each _ List.mem_cons_self _ first
    obtain ⟨m, ps, qs⟩ := ih fun a mem => each a (List.mem_cons_of_mem _ mem)
    exact ⟨c :: m, .cons hp ps, .cons hq qs⟩

theorem foldl_congr_of_forall₂ {γ : Type} {f : γ → α → γ} {g : γ → β → γ}
    (h : List.Forall₂ R l r) (agree : ∀ c a b, R a b → g c b = f c a) (c : γ) :
    r.foldl g c = l.foldl f c := by
  induction h generalizing c with
  | nil => rfl
  | cons first _ ih => rw [List.foldl_cons, List.foldl_cons, agree c _ _ first, ih]

/-- A fold whose steps succeed computes what the steps give. -/
theorem foldlM_eq_ok {ε γ : Type} {step : γ → α → Except ε γ} {f : γ → α → γ}
    (each : ∀ a ∈ l, ∀ c, step c a = .ok (f c a)) (c : γ) : l.foldlM step c = .ok (l.foldl f c) := by
  induction l generalizing c with
  | nil => rfl
  | cons a l ih =>
    obtain ⟨first, others⟩ := List.forall_mem_cons.1 each
    rw [List.foldlM_cons, first c, List.foldl_cons]
    exact ih others _

end

/-! ## References -/

def SortKey.Respelled (k l : SortKey) : Prop :=
  SameName k.column l.column ∧ k.ascending = l.ascending

def AggregateColumn.Respelled (a b : AggregateColumn) : Prop :=
  a.func = b.func ∧ SameName a.column b.column

namespace Expr

mutual

/-- The expressions differ only in how they spell their references. -/
def Respelled : Expr → Expr → Prop
  | column a, column b => SameName a b
  | const v t, const w u => v = w ∧ t = u
  | combine p as, combine q bs => p = q ∧ RespelledAll as bs
  | rowNumber ks, rowNumber ls => List.Forall₂ SortKey.Respelled ks ls
  | _, _ => False

def RespelledAll : List Expr → List Expr → Prop
  | [], [] => True
  | e :: es, f :: fs => e.Respelled f ∧ RespelledAll es fs
  | _, _ => False

end

end Expr

/-- No column is renamed twice. -/
def RenamedOnce (entries : List (String × Renaming)) : Prop :=
  (entries.map fun e => foldCase e.1).Nodup

/-- The renamings differ only in how they spell the columns. They are kept in the order of the
spellings, so another spelling may change their order; a column that is renamed twice must be
spelled as before. -/
inductive RenamingsRespelled : OrderedMap String Renaming → OrderedMap String Renaming → Prop where
  | refl (mapping : OrderedMap String Renaming) : RenamingsRespelled mapping mapping
  | once {mapping other : OrderedMap String Renaming} {entries : List (String × Renaming)}
      (once : RenamedOnce mapping.entries)
      (names : List.Forall₂ (fun a b => SameName a.1 b.1 ∧ a.2 = b.2) mapping.entries entries)
      (order : entries.Perm other.entries) : RenamingsRespelled mapping other

/-- The operators differ only in how they spell their references. -/
inductive Head.Respelled : Head → Head → Prop where
  | table (name : String) (schema : Schema) : Respelled (.table name schema) (.table name schema)
  | project {columns others : List String} (names : List.Forall₂ SameName columns others) :
      Respelled (.project columns) (.project others)
  | filter {predicate other : Expr} (condition : predicate.Respelled other) :
      Respelled (.filter predicate) (.filter other)
  | groupBy {columns columns' : List String} {aggregates aggregates' : List AggregateColumn}
      (names : List.Forall₂ SameName columns columns')
      (inputs : List.Forall₂ AggregateColumn.Respelled aggregates aggregates') :
      Respelled (.groupBy columns aggregates) (.groupBy columns' aggregates')
  | sort {keys others : List SortKey} (names : List.Forall₂ SortKey.Respelled keys others) :
      Respelled (.sort keys) (.sort others)
  | extend (column : String) (type : DataType) {value other : Expr} (term : value.Respelled other) :
      Respelled (.extend column type value) (.extend column type other)
  | mapColumns {mapping other : OrderedMap String Renaming}
      (names : RenamingsRespelled mapping other) : Respelled (.mapColumns mapping) (.mapColumns other)
  | mapColumnsAt (mapping : OrderedMap Nat Renaming) :
      Respelled (.mapColumnsAt mapping) (.mapColumnsAt mapping)
  | concat : Respelled .concat .concat
  | join {keys others : List String} (kind : JoinKind) (nullSafe : Bool)
      (names : List.Forall₂ SameName keys others) :
      Respelled (.join keys kind nullSafe) (.join others kind nullSafe)

/-! ## Columns that references find -/

namespace Schema

variable {s r t : Schema} {a b : String}

theorem find?_respelled (s : Schema) (same : SameName a b) : s.find? b = s.find? a := by
  unfold find?
  congr 1
  funext c
  exact decide_eq_decide.2 (sameName_congr same).symm

theorem has_respelled (s : Schema) (same : SameName a b) : s.has b = s.has a := by
  rw [has, has, find?_respelled s same]

theorem index?_respelled (s : Schema) (same : SameName a b) : s.index? b = s.index? a := by
  unfold index?
  congr 1
  funext c
  exact decide_eq_decide.2 (sameName_congr same).symm

theorem forall_has_respelled {keys others : List SortKey}
    (spelled : List.Forall₂ SortKey.Respelled keys others)
    (has : ∀ k ∈ keys, s.has k.column = true) : ∀ k ∈ others, s.has k.column = true := by
  intro k mem
  obtain ⟨old, hold, same, -⟩ := exists_of_mem_right spelled mem
  rw [has_respelled s same]
  exact has old hold

end Schema

namespace Expr

variable {s : Schema}

mutual

theorem hasRowNumber_respelled : ∀ e f : Expr, e.Respelled f → f.hasRowNumber = e.hasRowNumber
  | .column _, f, same => by cases f <;> first | rfl | cases same
  | .const _ _, f, same => by cases f <;> first | rfl | cases same
  | .rowNumber _, f, same => by cases f <;> first | rfl | cases same
  | .combine _ es, f, same => by
    cases f with
    | combine _ fs => exact anyRowNumber_respelled es fs same.2
    | column | const | rowNumber => cases same

theorem anyRowNumber_respelled : ∀ es fs : List Expr, RespelledAll es fs →
    anyRowNumber fs = anyRowNumber es
  | [], [], _ => rfl
  | e :: es, f :: fs, same => by
    rw [anyRowNumber, anyRowNumber, hasRowNumber_respelled e f same.1,
      anyRowNumber_respelled es fs same.2]

end

mutual

/-- An expression that has a type keeps it under other spellings. -/
theorem type_respelled : ∀ (e f : Expr) (t : DataType), e.Respelled f → e.type s = .ok t →
    f.type s = .ok t
  | .column a, f, t, same, typed => by
    cases f with
    | column b =>
      have found : s.type? b = s.type? a := by
        rw [Schema.type?, Schema.type?, Schema.find?_respelled s same]
      cases known : s.type? a with
      | none =>
        rw [type, known] at typed
        cases typed
      | some u =>
        rw [type, known] at typed
        rw [type, found, known]
        exact typed
    | const | combine | rowNumber => cases same
  | .const _ _, f, t, same, typed => by
    cases f with
    | const =>
      obtain ⟨rfl, rfl⟩ := same
      exact typed
    | column | combine | rowNumber => cases same
  | .rowNumber ks, f, t, same, typed => by
    cases f with
    | rowNumber ls =>
      have nonempty : ls ≠ [] := by
        rw [ne_eq, forall₂_nil_iff same]
        rintro rfl
        cases typed
      have has := has_of_type_rowNumber typed
      rw [type_rowNumber nonempty (Schema.forall_has_respelled same has)]
      rw [type_rowNumber (mt (forall₂_nil_iff same).2 nonempty) has] at typed
      exact typed
    | column | const | combine => cases same
  | .combine op es, f, t, same, typed => by
    cases f with
    | combine _ fs =>
      obtain ⟨rfl, operands⟩ := same
      cases known : types s es with
      | error e =>
        rw [type, known] at typed
        cases typed
      | ok ts =>
        rw [type, known] at typed
        rw [type, types_respelled es fs ts operands known]
        exact typed
    | column | const | rowNumber => cases same

theorem types_respelled : ∀ (es fs : List Expr) (ts : List DataType), RespelledAll es fs →
    types s es = .ok ts → types s fs = .ok ts
  | [], [], _, _, typed => typed
  | e :: es, f :: fs, ts, same, typed => by
    cases known : e.type s with
    | error err =>
      rw [types, known] at typed
      cases typed
    | ok t =>
      rw [types, known] at typed
      obtain ⟨rest, others, rfl⟩ := map_eq_ok_iff.1 typed
      rw [types, type_respelled e f t same.1 known]
      exact map_eq_ok_iff.2 ⟨rest, types_respelled es fs rest same.2 others, rfl⟩

end

end Expr

/-! ## Schema rules -/

namespace Schema

variable {s r t : Schema}

theorem project_respelled {columns others : List String} (derived : s.project columns = .ok t)
    (spelled : List.Forall₂ SameName columns others) : s.project others = .ok t := by
  obtain ⟨nonempty, found⟩ := project_eq_ok_iff.1 derived
  refine project_eq_ok_iff.2 ⟨mt (forall₂_nil_iff spelled).1 nonempty, ?_⟩
  refine forall₂_comp spelled.flip found fun b a c same hc => ?_
  rw [find?_respelled s same, hc]

theorem checkPredicate_respelled {predicate other : Expr}
    (checked : s.checkPredicate predicate = .ok ()) (spelled : predicate.Respelled other) :
    s.checkPredicate other = .ok () := by
  obtain ⟨unranked, typed⟩ := checkPredicate_eq_ok_iff.1 checked
  apply checkPredicate_eq_ok_iff.2
  rw [Expr.hasRowNumber_respelled _ _ spelled]
  exact ⟨unranked, Expr.type_respelled _ _ _ spelled typed⟩

theorem aggregated_respelled {a b : AggregateColumn} {c : Column} (found : s.aggregated a = .ok c)
    (spelled : a.Respelled b) : s.aggregated b = .ok c := by
  obtain ⟨input, type, hi, output, rfl⟩ := aggregated_eq_ok_iff.1 found
  obtain ⟨func, same⟩ := spelled
  refine aggregated_eq_ok_iff.2 ⟨input, type, ?_, func ▸ output, rfl⟩
  rw [find?_respelled s same, hi]

theorem groupBy_respelled {columns columns' : List String}
    {aggregates aggregates' : List AggregateColumn} (derived : s.groupBy columns aggregates = .ok t)
    (spelled : List.Forall₂ SameName columns columns')
    (respelled : List.Forall₂ AggregateColumn.Respelled aggregates aggregates') :
    s.groupBy columns' aggregates' = .ok t := by
  obtain ⟨nonempty, groups, rest, split, found, each⟩ := groupBy_eq_ok_iff.1 derived
  rw [← forall₂_nil_iff spelled, ← forall₂_nil_iff respelled] at nonempty
  refine groupBy_eq_ok_iff.2 ⟨nonempty, groups, rest, split, ?_, ?_⟩
  · refine forall₂_comp spelled.flip found fun b a c same hc => ?_
    rw [find?_respelled s same, hc]
  · exact forall₂_comp respelled.flip each fun b a c same hc => aggregated_respelled hc same

theorem checkSort_respelled {keys others : List SortKey} (checked : s.checkSort keys = .ok ())
    (spelled : List.Forall₂ SortKey.Respelled keys others) : s.checkSort others = .ok () := by
  obtain ⟨nonempty, has⟩ := checkSort_eq_ok_iff.1 checked
  exact checkSort_eq_ok_iff.2
    ⟨mt (forall₂_nil_iff spelled).1 nonempty, forall_has_respelled spelled has⟩

theorem extend_respelled {column : String} {type : DataType} {value other : Expr}
    (derived : s.extend column type value = .ok t) (spelled : value.Respelled other) :
    s.extend column type other = .ok t := by
  obtain ⟨fresh, actual, typed, casts, columns⟩ := extend_eq_ok_iff.1 derived
  exact extend_eq_ok_iff.2
    ⟨fresh, actual, Expr.type_respelled _ _ _ spelled typed, casts, columns⟩

theorem without_respelled (s : Schema) {keys others : List String}
    (spelled : List.Forall₂ SameName keys others) : s.without others = s.without keys := by
  refine List.filter_congr fun c _ => congrArg not ?_
  induction spelled with
  | nil => rfl
  | @cons a b _ _ first _ ih =>
    have same : decide (SameName b c.id) = decide (SameName a c.id) :=
      decide_eq_decide.2 ⟨first.trans, first.symm.trans⟩
    rw [List.any_cons, List.any_cons, ih, same]

theorem join_respelled {keys others : List String} (derived : s.join r keys = .ok t)
    (spelled : List.Forall₂ SameName keys others) : s.join r others = .ok t := by
  obtain ⟨nonempty, columns, found, split⟩ := join_eq_ok_iff.1 derived
  refine join_eq_ok_iff.2 ⟨mt (forall₂_nil_iff spelled).1 nonempty, columns, ?_, ?_⟩
  · refine forall₂_comp spelled.flip found fun b a c same hc => ?_
    rw [keyColumn_eq_ok_iff] at hc ⊢
    rwa [find?_respelled s same, find?_respelled r same]
  · rw [split, without_respelled s spelled, without_respelled r spelled]

/-! ## Renamings -/

def renamed (s : Schema) (columns : List Column) (entry : String × Renaming) : List Column :=
  match s.index? entry.1 with
  | some i => columns.modify i entry.2.apply
  | none => columns

theorem exists_index?_of_has {name : String} (has : s.has name = true) :
    ∃ i, s.index? name = some i := by
  rw [has_iff] at has
  obtain ⟨c, mem, same⟩ := has
  rw [← Option.isSome_iff_exists, index?, List.findIdx?_isSome, List.any_eq_true]
  exact ⟨c, mem, decide_eq_true same⟩

/-- A position belongs to one name. -/
theorem sameName_of_index? {a b : String} {i : Nat} (ha : s.index? a = some i)
    (hb : s.index? b = some i) : SameName a b := by
  obtain ⟨_, first, -⟩ := List.findIdx?_eq_some_iff_getElem.1 ha
  obtain ⟨_, second, -⟩ := List.findIdx?_eq_some_iff_getElem.1 hb
  exact (of_decide_eq_true first).symm.trans (of_decide_eq_true second)

/-- Renamings of columns that are there are applied one after the other. -/
theorem mapColumns_eq {mapping : OrderedMap String Renaming}
    (has : ∀ e ∈ mapping.entries, s.has e.1 = true) :
    s.mapColumns mapping = build .mapColumns (mapping.entries.foldl s.renamed s.columns) := by
  unfold mapColumns
  rw [foldlM_eq_ok (f := s.renamed)]
  · rfl
  · rintro ⟨name, new⟩ mem columns
    obtain ⟨i, found⟩ := exists_index?_of_has (has _ mem)
    simp only [renamed, found]

theorem renamed_respelled {a b : String × Renaming} (same : SameName a.1 b.1 ∧ a.2 = b.2)
    (columns : List Column) : s.renamed columns b = s.renamed columns a := by
  rw [renamed, renamed, index?_respelled s same.1, same.2]

/-- Renamings of different columns can change places. -/
theorem renamed_comm {a b : String × Renaming} (differ : ¬ SameName a.1 b.1)
    (columns : List Column) :
    s.renamed (s.renamed columns a) b = s.renamed (s.renamed columns b) a := by
  unfold renamed
  cases ha : s.index? a.1 with
  | none => rfl
  | some i =>
    cases hb : s.index? b.1 with
    | none => rfl
    | some j =>
      have apart : i ≠ j := by
        rintro rfl
        exact differ (sameName_of_index? ha hb)
      exact List.modify_modify_ne _ _ _ apart

theorem foldl_renamed_of_perm {entries others : List (String × Renaming)}
    (once : RenamedOnce entries) (perm : entries.Perm others) (columns : List Column) :
    others.foldl s.renamed columns = entries.foldl s.renamed columns := by
  refine (perm.foldl_eq' ?_ columns).symm
  intro a ha b hb columns
  by_cases same : a = b
  · rw [same]
  · exact renamed_comm (fun named => same (List.inj_on_of_nodup_map once ha hb named)) columns

theorem mapColumns_respelled {mapping other : OrderedMap String Renaming}
    (derived : s.mapColumns mapping = .ok t) (spelled : RenamingsRespelled mapping other) :
    s.mapColumns other = .ok t := by
  have has := has_of_mapColumns derived
  cases spelled with
  | refl => exact derived
  | @once _ entries once names order =>
    have hasOther : ∀ e ∈ other.entries, s.has e.1 = true := by
      intro e mem
      obtain ⟨old, hold, same, -⟩ := exists_of_mem_right names (order.mem_iff.2 mem)
      rw [has_respelled s same]
      exact has old hold
    have onceOther : RenamedOnce entries := by
      rw [RenamedOnce, ← map_eq_map_of_forall₂ names fun a b same => same.1]
      exact once
    rw [mapColumns_eq has] at derived
    rw [mapColumns_eq hasOther, foldl_renamed_of_perm onceOther order,
      foldl_congr_of_forall₂ names fun columns a b same => renamed_respelled same columns]
    exact derived

end Schema

/-! ## Trees of operators -/

/-- A tree of operators that need not fit together. -/
inductive Outline
  | node (head : Head) (below : List Outline)

namespace Outline

mutual

/-- The query that the operators make, if each fits what is below it. -/
def build : Outline → Option Query
  | node head below => do head.build (← buildAll below)

def buildAll : List Outline → Option (List Query)
  | [] => some []
  | o :: rest => do return (← build o) :: (← buildAll rest)

end

mutual

/-- The trees differ only in how their operators spell their references. -/
def Respelled : Outline → Outline → Prop
  | node head below, node head' below' => head.Respelled head' ∧ RespelledAll below below'

def RespelledAll : List Outline → List Outline → Prop
  | [], [] => True
  | o :: rest, o' :: rest' => o.Respelled o' ∧ RespelledAll rest rest'
  | _, _ => False

end

end Outline

/-- The operators of a plan. -/
def Plan.outline {s : Schema} : Plan s → Outline
  | table name s _ => .node (.table name s) []
  | project source columns _ => .node (.project columns) [source.outline]
  | filter source predicate _ => .node (.filter predicate) [source.outline]
  | groupBy source columns aggregates _ => .node (.groupBy columns aggregates) [source.outline]
  | sort source keys _ => .node (.sort keys) [source.outline]
  | extend source column type value _ => .node (.extend column type value) [source.outline]
  | mapColumns source mapping _ => .node (.mapColumns mapping) [source.outline]
  | mapColumnsAt source mapping _ => .node (.mapColumnsAt mapping) [source.outline]
  | concat left right _ => .node .concat [left.outline, right.outline]
  | join left right keys kind nullSafe _ =>
    .node (.join keys kind nullSafe) [left.outline, right.outline]

theorem Plan.outline_eq {s : Schema} (p : Plan s) :
    p.outline = .node p.head (p.children.map fun child => child.plan.outline) := by
  cases p <;> rfl

namespace Outline

variable {outlines others : List Outline} {queries : List Query}

theorem buildAll_eq_some_iff : buildAll outlines = some queries ↔
    List.Forall₂ (fun o q => o.build = some q) outlines queries := by
  induction outlines generalizing queries with
  | nil => cases queries <;> simp [buildAll]
  | cons o outlines ih =>
    simp only [buildAll, bind, pure, Option.bind_eq_some_iff, Option.some.injEq]
    constructor
    · rintro ⟨q, built, rest, below, rfl⟩
      exact .cons built (ih.1 below)
    · rintro (_ | ⟨built, below⟩)
      exact ⟨_, built, _, ih.2 below, rfl⟩

theorem respelledAll_iff : RespelledAll outlines others ↔
    List.Forall₂ Respelled outlines others := by
  induction outlines generalizing others with
  | nil => cases others <;> simp [RespelledAll]
  | cons o outlines ih => cases others <;> simp [RespelledAll, ih]

/-- A query is what its operators make. -/
theorem build_outline (q : Query) : q.plan.outline.build = some q := by
  induction q using Query.induct with
  | step q ih =>
    have below : buildAll (q.plan.children.map fun child => child.plan.outline) =
        some q.plan.children := by
      rw [buildAll_eq_some_iff, List.forall₂_map_left_iff, List.forall₂_same]
      exact ih
    rw [Plan.outline_eq, build, below]
    exact q.plan.build_head

end Outline

end Crosstab
