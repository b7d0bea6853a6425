import Crosstab.Proofs.Json.Plans

namespace Crosstab

open Json (Draft Fields Number)
open Json.Draft (ofJson)

theorem lt_of_readIndex? {cs : List Char} {i : Nat} (h : readIndex? cs = some i) :
    i < pow2 64 := by
  simp only [readIndex?, bind, Option.bind_eq_some_iff] at h
  obtain ⟨n, -, small⟩ := h
  split at small
  · cases small; assumption
  · cases small

/-- Every entry of a mapping by position comes from an entry whose text is a position. -/
theorem mem_of_ofIndexTexts {texts : OrderedMap String Renaming}
    {mapping : OrderedMap Nat Renaming} (h : ofIndexTexts texts = .ok mapping) :
    ∀ e ∈ mapping.entries, e.1 < pow2 64 ∧ ∃ key, (key, e.2) ∈ texts.entries := by
  obtain ⟨entries, each, made⟩ := bind_eq_ok_iff.1 h
  cases made
  intro e he
  obtain ⟨⟨key, r⟩, hk, found⟩ :=
    exists_of_mem_right (mapM_eq_ok_iff.1 each) (OrderedMap.mem_of_mem_ofList he)
  simp only at found
  split at found
  · next index read =>
    cases found
    exact ⟨lt_of_readIndex? read, key, hk⟩
  · cases found

namespace Query

variable {n : Nat}

/-- The query is encoded within some bounds, and its positions have 64 bits. -/
def Portable (n : Nat) (q : Query) : Prop :=
  (ofJson q.toJson).Within Number.Plain n ∧ ∀ i ∈ q.plan.positions, i < pow2 64

/-- A query is portable if its fields are within the bounds of one level less. -/
theorem portable_of_fields {s : Schema} {p : Plan s} (pos : 0 < n)
    (fields : ∀ f ∈ p.fields, (ofJson f.2).Within Number.Plain (n - 1))
    (fit : ∀ i ∈ p.positions, i < pow2 64) : Portable n ⟨s, p⟩ := by
  refine ⟨?_, fit⟩
  rw [toJson, p.toJson_eq, Draft.within_fields, List.forall_mem_cons]
  exact ⟨pos, Draft.within_string _, fields⟩

section
variable {child : Draft → Draft.Decoded Query}
  (below : ∀ {p : Draft} {q : Query} {m : Nat}, child p = .ok q → p.Within Number.Plain m →
    q.Portable m)
  {d : Draft} {q : Query} (within : d.Within Number.Plain n)
include below within

omit below in
theorem portable_table (h : ofFields child d .table = .ok q) : q.Portable n := by
  obtain ⟨⟨name, schema, ⟨⟩⟩, read, made⟩ := bind_eq_ok_iff.1 h
  obtain ⟨pos, -, ⟨p, inside, decoded⟩, -⟩ := Fields.made_of_read _ read within
  obtain ⟨named, rfl⟩ := table_eq_ok_iff.1 (mapError_eq_ok_iff.1 made)
  have shown := Schema.within_of_ofDraft decoded inside
  exact portable_of_fields pos (List.forall_mem_cons.2 ⟨Draft.within_string _,
    List.forall_mem_singleton.2 shown⟩) (List.forall_mem_nil _)

theorem portable_project (h : ofFields child d .project = .ok q) : q.Portable n := by
  obtain ⟨⟨source, columns, ⟨⟩⟩, read, made⟩ := bind_eq_ok_iff.1 h
  obtain ⟨pos, ⟨p, inside, decoded⟩, ⟨list, inList, decodedList⟩, -⟩ :=
    Fields.made_of_read _ read within
  obtain ⟨t, derived, rfl⟩ := project_eq_ok_iff.1 (mapError_eq_ok_iff.1 made)
  obtain ⟨inner, fit⟩ := below decoded inside
  exact portable_of_fields pos (List.forall_mem_cons.2 ⟨inner,
    List.forall_mem_singleton.2 (Draft.within_of_listOf_text decodedList inList)⟩) fit

theorem portable_filter (h : ofFields child d .filter = .ok q) : q.Portable n := by
  obtain ⟨⟨source, predicate, ⟨⟩⟩, read, made⟩ := bind_eq_ok_iff.1 h
  obtain ⟨pos, ⟨p, inside, decoded⟩, ⟨e, inExpr, decodedExpr⟩, -⟩ :=
    Fields.made_of_read _ read within
  obtain ⟨checked, rfl⟩ := filter_eq_ok_iff.1 (mapError_eq_ok_iff.1 made)
  obtain ⟨inner, fit⟩ := below decoded inside
  exact portable_of_fields pos (List.forall_mem_cons.2 ⟨inner,
    List.forall_mem_singleton.2 (Expr.within_of_ofDraft decodedExpr inExpr)⟩) fit

theorem portable_groupBy (h : ofFields child d .groupBy = .ok q) : q.Portable n := by
  obtain ⟨⟨source, columns, aggregates, ⟨⟩⟩, read, made⟩ := bind_eq_ok_iff.1 h
  obtain ⟨pos, ⟨p, inside, decoded⟩, ⟨list, inList, decodedList⟩, ⟨a, inA, decodedA⟩, -⟩ :=
    Fields.made_of_read _ read within
  obtain ⟨t, derived, rfl⟩ := groupBy_eq_ok_iff.1 (mapError_eq_ok_iff.1 made)
  obtain ⟨inner, fit⟩ := below decoded inside
  have others : (ofJson (.array (aggregates.map AggregateColumn.toJson))).Within
      Number.Plain (n - 1) := Draft.within_of_listOf decodedA inA fun decoded inside =>
    AggregateColumn.within_toJson _ (Fields.pos_of_read decoded inside)
  exact portable_of_fields pos (List.forall_mem_cons.2 ⟨inner,
    List.forall_mem_cons.2 ⟨Draft.within_of_listOf_text decodedList inList,
      List.forall_mem_singleton.2 others⟩⟩) fit

theorem portable_sort (h : ofFields child d .sort = .ok q) : q.Portable n := by
  obtain ⟨⟨source, keys, ⟨⟩⟩, read, made⟩ := bind_eq_ok_iff.1 h
  obtain ⟨pos, ⟨p, inside, decoded⟩, ⟨list, inList, decodedList⟩, -⟩ :=
    Fields.made_of_read _ read within
  obtain ⟨checked, rfl⟩ := sort_eq_ok_iff.1 (mapError_eq_ok_iff.1 made)
  obtain ⟨inner, fit⟩ := below decoded inside
  exact portable_of_fields pos (List.forall_mem_cons.2 ⟨inner,
    List.forall_mem_singleton.2 (SortKey.within_of_listOf decodedList inList)⟩) fit

theorem portable_extend (h : ofFields child d .extend = .ok q) : q.Portable n := by
  obtain ⟨⟨source, column, type, value, ⟨⟩⟩, read, made⟩ := bind_eq_ok_iff.1 h
  obtain ⟨pos, ⟨p, inside, decoded⟩, -, -, ⟨e, inExpr, decodedExpr⟩, -⟩ :=
    Fields.made_of_read _ read within
  obtain ⟨t, derived, rfl⟩ := extend_eq_ok_iff.1 (mapError_eq_ok_iff.1 made)
  obtain ⟨inner, fit⟩ := below decoded inside
  exact portable_of_fields pos (List.forall_mem_cons.2 ⟨inner,
    List.forall_mem_cons.2 ⟨Draft.within_string _, List.forall_mem_cons.2 ⟨Draft.within_string _,
      List.forall_mem_singleton.2 (Expr.within_of_ofDraft decodedExpr inExpr)⟩⟩⟩) fit

theorem portable_mapColumns (h : ofFields child d .mapColumns = .ok q) : q.Portable n := by
  obtain ⟨⟨source, mapping, ⟨⟩⟩, read, made⟩ := bind_eq_ok_iff.1 h
  obtain ⟨pos, ⟨p, inside, decoded⟩, ⟨m, inMap, decodedMap⟩, -⟩ :=
    Fields.made_of_read _ read within
  obtain ⟨t, derived, rfl⟩ := derive_eq_ok_iff.1 (mapError_eq_ok_iff.1 made)
  obtain ⟨inner, fit⟩ := below decoded inside
  have names : (ofJson (mappingJson mapping)).Within Number.Plain (n - 1) :=
    Draft.within_of_mapOf decodedMap inMap fun decoded inside =>
      Renaming.within_toJson _ (Fields.pos_of_read decoded inside)
  exact portable_of_fields pos (List.forall_mem_cons.2 ⟨inner,
    List.forall_mem_singleton.2 names⟩) fit

theorem portable_mapColumnsByIndex (h : ofFields child d .mapColumnsByIndex = .ok q) :
    q.Portable n := by
  obtain ⟨⟨source, mapping, ⟨⟩⟩, read, made⟩ := bind_eq_ok_iff.1 h
  obtain ⟨pos, ⟨p, inside, decoded⟩, ⟨m, inMap, decodedMap⟩, -⟩ :=
    Fields.made_of_read _ read within
  obtain ⟨t, derived, rfl⟩ := derive_eq_ok_iff.1 (mapError_eq_ok_iff.1 made)
  obtain ⟨inner, fit⟩ := below decoded inside
  obtain ⟨texts, decodedTexts, positions⟩ := bind_eq_ok_iff.1 decodedMap
  obtain ⟨mapPos, parts⟩ := Draft.made_of_mapOf decodedTexts inMap
  have names : (ofJson (mappingJson (indexTexts mapping))).Within Number.Plain (n - 1) := by
    refine Draft.within_fields.2 ⟨mapPos, List.forall_mem_map.2 fun e he => ?_⟩
    obtain ⟨i, hi, -⟩ := mem_indexTexts_iff.1 he
    obtain ⟨-, key, hk⟩ := mem_of_ofIndexTexts positions _ hi
    obtain ⟨p, inside, decoded⟩ := parts _ hk
    exact Renaming.within_toJson _ (Fields.pos_of_read decoded inside)
  refine portable_of_fields pos (List.forall_mem_cons.2 ⟨inner,
    List.forall_mem_singleton.2 names⟩) (List.forall_mem_append.2 ⟨fit, ?_⟩)
  exact List.forall_mem_map.2 fun e he => (mem_of_ofIndexTexts positions e he).1

theorem portable_concat (h : ofFields child d .concat = .ok q) : q.Portable n := by
  obtain ⟨⟨source, target, ⟨⟩⟩, read, made⟩ := bind_eq_ok_iff.1 h
  obtain ⟨pos, ⟨p, inside, decoded⟩, ⟨p', inside', decoded'⟩, -⟩ :=
    Fields.made_of_read _ read within
  obtain ⟨t, derived, rfl⟩ := concat_eq_ok_iff.1 (mapError_eq_ok_iff.1 made)
  obtain ⟨left, fit⟩ := below decoded inside
  obtain ⟨right, fit'⟩ := below decoded' inside'
  exact portable_of_fields pos (List.forall_mem_cons.2 ⟨left,
    List.forall_mem_singleton.2 right⟩) (List.forall_mem_append.2 ⟨fit, fit'⟩)

theorem portable_join (h : ofFields child d .join = .ok q) : q.Portable n := by
  obtain ⟨⟨source, target, keys, kind, nullSafe, ⟨⟩⟩, read, made⟩ := bind_eq_ok_iff.1 h
  obtain ⟨pos, ⟨p, inside, decoded⟩, ⟨p', inside', decoded'⟩, ⟨list, inList, decodedList⟩, -⟩ :=
    Fields.made_of_read _ read within
  obtain ⟨t, derived, rfl⟩ := join_eq_ok_iff.1 (mapError_eq_ok_iff.1 made)
  obtain ⟨left, fit⟩ := below decoded inside
  obtain ⟨right, fit'⟩ := below decoded' inside'
  have names := Draft.within_of_listOf_text decodedList inList
  refine portable_of_fields pos ?_ (List.forall_mem_append.2 ⟨fit, fit'⟩)
  refine List.forall_mem_append.2 ⟨List.forall_mem_cons.2 ⟨left, List.forall_mem_cons.2 ⟨right,
    List.forall_mem_cons.2 ⟨names, List.forall_mem_singleton.2 (Draft.within_string _)⟩⟩⟩, ?_⟩
  cases nullSafe with
  | false => exact List.forall_mem_nil _
  | true => exact List.forall_mem_singleton.2 ⟨rfl, trivial⟩

theorem portable_of_ofFields {operator : Operator} (h : ofFields child d operator = .ok q) :
    q.Portable n := by
  cases operator with
  | table => exact portable_table within h
  | project => exact portable_project below within h
  | filter => exact portable_filter below within h
  | groupBy => exact portable_groupBy below within h
  | sort => exact portable_sort below within h
  | extend => exact portable_extend below within h
  | mapColumns => exact portable_mapColumns below within h
  | mapColumnsByIndex => exact portable_mapColumnsByIndex below within h
  | concat => exact portable_concat below within h
  | join => exact portable_join below within h

end

theorem portable_of_ofDraft {levels : Nat} {buffered : Bool} {d : Draft} {q : Query}
    (h : ofDraft levels buffered d = .ok q) (within : d.Within Number.Plain n) :
    q.Portable n := by
  induction levels generalizing buffered d q n with
  | zero => cases h
  | succ levels ih =>
    obtain ⟨⟨operator, rest⟩, tagged, made⟩ := bind_eq_ok_iff.1 h
    exact portable_of_ofFields ih (Draft.within_of_tagged tagged within) made

end Query

end Crosstab
