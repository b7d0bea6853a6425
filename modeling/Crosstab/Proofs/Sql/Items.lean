import Crosstab.Proofs.Rules
import Crosstab.Sql.Compile

namespace Crosstab

namespace Sql

variable {s r : Schema}

theorem eq_of_identifier {name id : String} (h : identifier name = .ok id) : id = name := by
  unfold identifier at h
  split at h
  · cases h
  · split at h <;> cases h
    rfl

theorem canonical_eq_ok {name id : String} (h : canonical s name = .ok id) :
    ∃ c, s.find? name = some c ∧ id = c.id := by
  unfold canonical at h
  split at h
  · cases h
  · next c hc => exact ⟨c, hc, eq_of_identifier h⟩

theorem columnItem_eq {c : Column} {item : SelectItem} (h : columnItem c = .ok item) :
    item = .plain (.named c.id) := by
  obtain ⟨id, hid, hi⟩ := bind_eq_ok_iff.1 h
  rw [← pure_eq_ok_iff.1 hi, eq_of_identifier hid]

/-- A list of outcomes that are all known is known. -/
theorem eq_map_of_mapM {ε α β : Type} {f : α → Except ε β} {g : α → β} {l : List α} {r : List β}
    (h : l.mapM f = .ok r) (known : ∀ a ∈ l, ∀ b, f a = .ok b → b = g a) : r = l.map g := by
  have each := mapM_eq_ok_iff.1 h
  clear h
  induction each with
  | nil => rfl
  | cons first _ ih =>
    rw [List.map_cons, known _ List.mem_cons_self _ first,
      ih fun a ha => known a (List.mem_cons_of_mem _ ha)]

def shown (s : Schema) : List SelectItem := s.columns.map fun c => .plain (.named c.id)

theorem columnItems_eq {items : List SelectItem} (h : columnItems s = .ok items) :
    items = shown s :=
  eq_map_of_mapM h fun _ _ _ => columnItem_eq

/-- The id of the column that a name means; the name itself if it means none. -/
def idOf (s : Schema) (name : String) : String := ((s.find? name).map (·.id)).getD name

theorem idOf_eq {name : String} {c : Column} (h : s.find? name = some c) : idOf s name = c.id := by
  simp [idOf, h]

theorem canonical_eq {name id : String} (h : canonical s name = .ok id) : id = idOf s name := by
  obtain ⟨c, hc, rfl⟩ := canonical_eq_ok h
  exact (idOf_eq hc).symm

theorem groupColumns_eq {columns : List String} {groups : List Expr}
    (h : groupColumns s columns = .ok groups) :
    groups = columns.map fun name => .named (idOf s name) := by
  refine eq_map_of_mapM h fun name _ e he => ?_
  obtain ⟨id, hid, he⟩ := bind_eq_ok_iff.1 he
  rw [← pure_eq_ok_iff.1 he, canonical_eq hid]

theorem aggregateItem_eq_ok {a : AggregateColumn} {item : SelectItem}
    (h : aggregateItem s a = .ok item) :
    ∃ c, s.find? a.column = some c ∧ item = ⟨aggregateExpr a.func c.id c.type, some c.id⟩ := by
  unfold aggregateItem at h
  split at h
  · cases h
  · next c hc =>
    obtain ⟨id, hid, hi⟩ := bind_eq_ok_iff.1 h
    exact ⟨c, hc, by rw [← pure_eq_ok_iff.1 hi, eq_of_identifier hid]⟩

theorem renamedItem_eq_ok {old new : Column} {item : SelectItem}
    (h : renamedItem old new = .ok item) :
    item = ⟨.named old.id, if old.id = new.id then none else some new.id⟩ := by
  have rest {asName : Option String}
      (k : (identifier old.id >>= fun id => pure ⟨.named id, asName⟩) = .ok item) :
      item = ⟨.named old.id, asName⟩ := by
    obtain ⟨id, hid, hi⟩ := bind_eq_ok_iff.1 k
    rw [← pure_eq_ok_iff.1 hi, eq_of_identifier hid]
  unfold renamedItem at h
  split at h
  · next same =>
    obtain ⟨asName, ha, h⟩ := bind_eq_ok_iff.1 h
    rw [rest h, if_pos same, ← pure_eq_ok_iff.1 ha]
  · next other =>
    obtain ⟨asName, ha, h⟩ := bind_eq_ok_iff.1 h
    obtain ⟨_, hn, rfl⟩ := map_eq_ok_iff.1 (show (identifier new.id).map some = .ok asName from ha)
    rw [rest h, if_neg other, eq_of_identifier hn]

/-- The forms that an operation on compiled operands takes. -/
theorem combined_eq_ok {op : Operation} {operands : List Expr} {e : Expr}
    (h : combined op operands = .ok e) :
    (op = .and ∧ joined .and operands = some e) ∨ (op = .or ∧ joined .or operands = some e) ∨
    (∃ last, operands.getLast? = some last ∧ (op = .not ∧ e = .not last ∨
      op = .isNull ∧ e = .isNull last false ∨ op = .isNotNull ∧ e = .isNull last true)) ∨
    ∃ binary left right, binaryOp? op = some binary ∧ operands = [left, right] ∧
      e = .binary left binary right := by
  have ofJoined {op : Operation} {joiner : BinaryOp}
      (h : joinedOperands op joiner operands = .ok e) : joined joiner operands = some e := by
    unfold joinedOperands at h
    split at h
    · next joined hj => rw [hj, Except.ok.inj h]
    · cases h
  have ofLast {op : Operation} {node : Expr → Expr} (h : lastOperand op node operands = .ok e) :
      ∃ last, operands.getLast? = some last ∧ e = node last := by
    unfold lastOperand at h
    split at h
    · next last hl => exact ⟨last, hl, (Except.ok.inj h).symm⟩
    · cases h
  unfold combined at h
  split at h
  · exact .inl ⟨rfl, ofJoined h⟩
  · exact .inr (.inl ⟨rfl, ofJoined h⟩)
  · obtain ⟨last, hl, he⟩ := ofLast h
    exact .inr (.inr (.inl ⟨last, hl, .inl ⟨rfl, he⟩⟩))
  · obtain ⟨last, hl, he⟩ := ofLast h
    exact .inr (.inr (.inl ⟨last, hl, .inr (.inl ⟨rfl, he⟩)⟩))
  · obtain ⟨last, hl, he⟩ := ofLast h
    exact .inr (.inr (.inl ⟨last, hl, .inr (.inr ⟨rfl, he⟩)⟩))
  · next hb =>
    exact .inr (.inr (.inr ⟨_, _, _, hb, rfl, (Except.ok.inj h).symm⟩))
  · cases h

theorem joinItems_eq {left right : String} {columns : List Column} {items : List SelectItem}
    (h : columns.mapM (joinItem s left right) = .ok items) :
    items = columns.map fun c => .plain (.qualified (if s.has c.id then left else right) c.id) := by
  refine eq_map_of_mapM h fun c _ item hi => ?_
  obtain ⟨id, hid, hi⟩ := bind_eq_ok_iff.1 hi
  rw [← pure_eq_ok_iff.1 hi, eq_of_identifier hid]

/-- The comparison of one key column on both sides of a join. -/
def keyComparison (s r : Schema) (left right : String) (op : BinaryOp) (key : String) : Expr :=
  .binary (.qualified left (idOf s key)) op (.qualified right (idOf r key))

theorem joinCondition_eq {left right : String} {nullSafe : Bool} {keys : List String}
    {condition : Expr} (h : joinCondition s r left right nullSafe keys = .ok condition) :
    joined .and (keys.map (keyComparison s r left right (if nullSafe then .is else .eq))) =
      some condition := by
  obtain ⟨conditions, hc, h⟩ := bind_eq_ok_iff.1 h
  have all : conditions =
      keys.map (keyComparison s r left right (if nullSafe then .is else .eq)) := by
    refine eq_map_of_mapM hc fun key _ e he => ?_
    obtain ⟨l, hl, he⟩ := bind_eq_ok_iff.1 he
    obtain ⟨rt, hr, he⟩ := bind_eq_ok_iff.1 he
    rw [← pure_eq_ok_iff.1 he, canonical_eq hl, canonical_eq hr, keyComparison]
  rw [← all]
  split at h
  · next e he => rw [he, pure_eq_ok_iff.1 h]
  · cases h

end Sql

/-! ## Statements -/

namespace Plan

open Sql

/-- What the rows of a child are drawn from, under the alias `number`. -/
inductive DrawsFrom : {s : Schema} → Plan s → Nat → TableRef → Prop where
  | table {name : String} {s : Schema} {named : name ≠ ""} {number : Nat} :
      DrawsFrom (table name s named) number (.table name (some (aliasName number)))
  | statement {s : Schema} {p : Plan s} {number : Nat} {st : Statement}
      (h : p.statement (number + 1) = .ok st) :
      DrawsFrom p number (.subquery st (aliasName number))

theorem drawsFrom_of_tableRef {s : Schema} {p : Plan s} {number : Nat} {ref : TableRef}
    (h : p.tableRef number (p.statement (number + 1)) = .ok ref) : p.DrawsFrom number ref := by
  have subquery (h : (p.statement (number + 1) >>= fun st =>
      pure (.subquery st (aliasName number))) = .ok ref) : p.DrawsFrom number ref := by
    obtain ⟨st, hs, hr⟩ := bind_eq_ok_iff.1 h
    rw [← pure_eq_ok_iff.1 hr]
    exact .statement hs
  cases p with
  | table name _ _ =>
    obtain ⟨id, hid, hr⟩ := bind_eq_ok_iff.1 h
    rw [← pure_eq_ok_iff.1 hr, eq_of_identifier hid]
    exact .table
  | _ => exact subquery h

/-- The statement of a plan, by its operator. -/
inductive Emits : {s : Schema} → Plan s → Nat → Statement → Prop where
  | table {name : String} {s : Schema} {named : name ≠ ""} {next : Nat} :
      Emits (table name s named) next (.plain (shown s) (.table name none))
  | project {s t : Schema} {source : Plan s} {columns : List String}
      {derived : s.project columns = .ok t} {next : Nat} {ref : TableRef}
      (child : source.DrawsFrom next ref) :
      Emits (project source columns derived) next (.plain (shown t) ref)
  | filter {s : Schema} {source : Plan s} {predicate : Expr}
      {checked : s.checkPredicate predicate = .ok ()} {next : Nat} {ref : TableRef}
      {condition : Sql.Expr} (child : source.DrawsFrom next ref)
      (compiled : predicate.sql s = .ok condition) :
      Emits (filter source predicate checked) next
        (.select (shown s) (.item ref) (some condition) [] [])
  | groupBy {s t : Schema} {source : Plan s} {columns : List String}
      {aggregates : List AggregateColumn} {derived : s.groupBy columns aggregates = .ok t}
      {next : Nat} {ref : TableRef} {groups : List Sql.Expr} {rest : List SelectItem}
      (child : source.DrawsFrom next ref) (grouped : groupColumns s columns = .ok groups)
      (aggregated : aggregates.mapM (aggregateItem s) = .ok rest) :
      Emits (groupBy source columns aggregates derived) next
        (.select (groups.map .plain ++ rest) (.item ref) none groups [])
  | sort {s : Schema} {source : Plan s} {keys : List SortKey} {checked : s.checkSort keys = .ok ()}
      {next : Nat} {ref : TableRef} {order : List (Sql.Expr × Bool)}
      (child : source.DrawsFrom next ref) (ordered : keys.mapM (orderKey s) = .ok order) :
      Emits (sort source keys checked) next (.select (shown s) (.item ref) none [] order)
  | extend {s t : Schema} {source : Plan s} {column : String} {type : DataType} {value : Expr}
      {derived : s.extend column type value = .ok t} {next : Nat} {ref : TableRef}
      {compiled : Sql.Expr} (child : source.DrawsFrom next ref)
      (valued : value.sql s = .ok compiled) :
      Emits (extend source column type value derived) next
        (.plain (shown s ++ [⟨derivedExpr s type value compiled, some column⟩]) ref)
  | mapColumns {s t : Schema} {source : Plan s} {mapping : OrderedMap String Renaming}
      {derived : s.mapColumns mapping = .ok t} {next : Nat} {ref : TableRef}
      {items : List SelectItem} (child : source.DrawsFrom next ref)
      (renamed : ((s.columns.zip t.columns).mapM fun (old, new) => renamedItem old new) =
        .ok items) :
      Emits (mapColumns source mapping derived) next (.plain items ref)
  | mapColumnsAt {s t : Schema} {source : Plan s} {mapping : OrderedMap Nat Renaming}
      {derived : s.mapColumnsAt mapping = .ok t} {next : Nat} {ref : TableRef}
      {items : List SelectItem} (child : source.DrawsFrom next ref)
      (renamed : ((s.columns.zip t.columns).mapM fun (old, new) => renamedItem old new) =
        .ok items) :
      Emits (mapColumnsAt source mapping derived) next (.plain items ref)
  | concat {s r t : Schema} {left : Plan s} {right : Plan r} {derived : s.concat r = .ok t}
      {next : Nat} {leftRef rightRef : TableRef} (leftChild : left.DrawsFrom next leftRef)
      (rightChild : right.DrawsFrom (next + 1 + left.aliasCount) rightRef) :
      Emits (concat left right derived) next
        (.union true (.plain (shown s) leftRef) (.plain (shown r) rightRef))
  | join {s r t : Schema} {left : Plan s} {right : Plan r} {keys : List String} {kind : JoinKind}
      {nullSafe : Bool} {derived : s.join r keys = .ok t} {next : Nat}
      {leftRef rightRef : TableRef} {items : List SelectItem} {condition : Sql.Expr}
      (leftChild : left.DrawsFrom next leftRef)
      (rightChild : right.DrawsFrom (next + 1 + left.aliasCount) rightRef)
      (paired : t.columns.mapM (joinItem s leftRef.owner rightRef.owner) = .ok items)
      (compiled : joinCondition s r leftRef.owner rightRef.owner nullSafe keys = .ok condition) :
      Emits (join left right keys kind nullSafe derived) next
        (.select items (.join (.item leftRef) kind rightRef condition) none [] [])

theorem emits_of_statement {s : Schema} {p : Plan s} {next : Nat} {st : Statement}
    (h : p.statement next = .ok st) : p.Emits next st := by
  cases p with
  | table name s named =>
    obtain ⟨items, hi, h⟩ := bind_eq_ok_iff.1 h
    obtain ⟨id, hid, h⟩ := bind_eq_ok_iff.1 h
    rw [← pure_eq_ok_iff.1 h, columnItems_eq hi, eq_of_identifier hid]
    exact .table
  | project source columns derived =>
    obtain ⟨items, hi, h⟩ := bind_eq_ok_iff.1 h
    obtain ⟨ref, hr, h⟩ := bind_eq_ok_iff.1 h
    rw [← pure_eq_ok_iff.1 h, columnItems_eq hi]
    exact .project (drawsFrom_of_tableRef hr)
  | filter source predicate checked =>
    obtain ⟨items, hi, h⟩ := bind_eq_ok_iff.1 h
    obtain ⟨ref, hr, h⟩ := bind_eq_ok_iff.1 h
    obtain ⟨condition, hc, h⟩ := bind_eq_ok_iff.1 h
    rw [← pure_eq_ok_iff.1 h, columnItems_eq hi]
    exact .filter (drawsFrom_of_tableRef hr) hc
  | groupBy source columns aggregates derived =>
    obtain ⟨groups, hg, h⟩ := bind_eq_ok_iff.1 h
    obtain ⟨rest, ha, h⟩ := bind_eq_ok_iff.1 h
    obtain ⟨ref, hr, h⟩ := bind_eq_ok_iff.1 h
    rw [← pure_eq_ok_iff.1 h]
    exact .groupBy (drawsFrom_of_tableRef hr) hg ha
  | sort source keys checked =>
    obtain ⟨items, hi, h⟩ := bind_eq_ok_iff.1 h
    obtain ⟨ref, hr, h⟩ := bind_eq_ok_iff.1 h
    obtain ⟨order, ho, h⟩ := bind_eq_ok_iff.1 h
    rw [← pure_eq_ok_iff.1 h, columnItems_eq hi]
    exact .sort (drawsFrom_of_tableRef hr) ho
  | extend source column type value derived =>
    obtain ⟨items, hi, h⟩ := bind_eq_ok_iff.1 h
    obtain ⟨compiled, hv, h⟩ := bind_eq_ok_iff.1 h
    obtain ⟨asName, hn, h⟩ := bind_eq_ok_iff.1 h
    obtain ⟨ref, hr, h⟩ := bind_eq_ok_iff.1 h
    rw [← pure_eq_ok_iff.1 h, columnItems_eq hi, eq_of_identifier hn]
    exact .extend (drawsFrom_of_tableRef hr) hv
  | mapColumns source mapping derived =>
    obtain ⟨items, hi, h⟩ := bind_eq_ok_iff.1 h
    obtain ⟨ref, hr, h⟩ := bind_eq_ok_iff.1 h
    rw [← pure_eq_ok_iff.1 h]
    exact .mapColumns (drawsFrom_of_tableRef hr) hi
  | mapColumnsAt source mapping derived =>
    obtain ⟨items, hi, h⟩ := bind_eq_ok_iff.1 h
    obtain ⟨ref, hr, h⟩ := bind_eq_ok_iff.1 h
    rw [← pure_eq_ok_iff.1 h]
    exact .mapColumnsAt (drawsFrom_of_tableRef hr) hi
  | concat left right derived =>
    obtain ⟨leftItems, hli, h⟩ := bind_eq_ok_iff.1 h
    obtain ⟨leftRef, hlr, h⟩ := bind_eq_ok_iff.1 h
    obtain ⟨rightItems, hri, h⟩ := bind_eq_ok_iff.1 h
    obtain ⟨rightRef, hrr, h⟩ := bind_eq_ok_iff.1 h
    rw [← pure_eq_ok_iff.1 h, columnItems_eq hli, columnItems_eq hri]
    exact .concat (drawsFrom_of_tableRef hlr) (drawsFrom_of_tableRef hrr)
  | join left right keys kind nullSafe derived =>
    obtain ⟨leftRef, hlr, h⟩ := bind_eq_ok_iff.1 h
    obtain ⟨rightRef, hrr, h⟩ := bind_eq_ok_iff.1 h
    obtain ⟨items, hi, h⟩ := bind_eq_ok_iff.1 h
    obtain ⟨condition, hc, h⟩ := bind_eq_ok_iff.1 h
    rw [← pure_eq_ok_iff.1 h]
    exact .join (drawsFrom_of_tableRef hlr) (drawsFrom_of_tableRef hrr) hi hc

end Plan

end Crosstab
