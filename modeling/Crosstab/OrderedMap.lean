/-!
# Ordered maps

A finite map as the list of its entries in increasing order of their keys. The order is part of the
type, so equal maps have equal entries.
-/

namespace Crosstab

/-- An order in which a map can keep its keys. -/
class KeyOrder (α : Type) [LT α] : Prop where
  trans {a b c : α} : a < b → b < c → a < c
  eq_of_not_lt {a b : α} : ¬a < b → ¬b < a → a = b

instance : KeyOrder String where
  trans := String.lt_trans
  eq_of_not_lt h k := String.le_antisymm (String.not_lt.1 k) (String.not_lt.1 h)

instance : KeyOrder Nat where
  trans := Nat.lt_trans
  eq_of_not_lt h k := Nat.le_antisymm (Nat.not_lt.1 k) (Nat.not_lt.1 h)

/-- A finite map. -/
structure OrderedMap (α β : Type) [LT α] where
  /-- The entries in order. -/
  entries : List (α × β)
  sorted : entries.Pairwise (fun a b => a.1 < b.1)

namespace OrderedMap

variable {α β : Type} [LT α]

theorem ext_entries {m n : OrderedMap α β} (h : m.entries = n.entries) : m = n := by
  cases m; cases n; cases h; rfl

instance [DecidableEq α] [DecidableEq β] : DecidableEq (OrderedMap α β) := fun m n =>
  if h : m.entries = n.entries then isTrue (ext_entries h)
  else isFalse fun e => h (congrArg entries e)

def empty : OrderedMap α β := ⟨[], List.Pairwise.nil⟩

instance : Inhabited (OrderedMap α β) := ⟨empty⟩

variable [DecidableEq α] [DecidableLT α]

/-- The entries with one more in its place. -/
def insertEntry (key : α) (value : β) : List (α × β) → List (α × β)
  | [] => [(key, value)]
  | (k, v) :: rest =>
    if key = k then (key, value) :: rest
    else if key < k then (key, value) :: (k, v) :: rest
    else (k, v) :: insertEntry key value rest

theorem mem_insertEntry {key : α} {value : β} {entries : List (α × β)} {e : α × β}
    (h : e ∈ insertEntry key value entries) : e = (key, value) ∨ e ∈ entries := by
  induction entries with
  | nil => simpa [insertEntry] using h
  | cons head rest ih =>
    obtain ⟨k, v⟩ := head
    unfold insertEntry at h
    split at h
    · rcases List.mem_cons.1 h with h | h
      · exact .inl h
      · exact .inr (List.mem_cons_of_mem _ h)
    · split at h
      · rcases List.mem_cons.1 h with h | h
        · exact .inl h
        · exact .inr h
      · rcases List.mem_cons.1 h with h | h
        · exact .inr (h ▸ List.mem_cons_self)
        · exact (ih h).imp id (List.mem_cons_of_mem _)

variable [KeyOrder α]

theorem sorted_insertEntry (key : α) (value : β) {entries : List (α × β)}
    (h : entries.Pairwise (fun a b => a.1 < b.1)) :
    (insertEntry key value entries).Pairwise (fun a b => a.1 < b.1) := by
  induction entries with
  | nil => simp [insertEntry]
  | cons head rest ih =>
    obtain ⟨k, v⟩ := head
    obtain ⟨hk, hrest⟩ := List.pairwise_cons.1 h
    unfold insertEntry
    split
    · next e => subst e; exact List.pairwise_cons.2 ⟨hk, hrest⟩
    · split
      · next _ lt =>
        refine List.pairwise_cons.2 ⟨?_, h⟩
        intro e he
        rcases List.mem_cons.1 he with rfl | he
        · exact lt
        · exact KeyOrder.trans lt (hk e he)
      · next ne nlt =>
        refine List.pairwise_cons.2 ⟨?_, ih hrest⟩
        intro e he
        rcases mem_insertEntry he with rfl | he
        · by_cases gt : k < key
          · exact gt
          · exact absurd (KeyOrder.eq_of_not_lt nlt gt) ne
        · exact hk e he

/-- The map with one more entry, or another value for the key. -/
def insert (m : OrderedMap α β) (key : α) (value : β) : OrderedMap α β :=
  ⟨insertEntry key value m.entries, sorted_insertEntry key value m.sorted⟩

/-- The map of the entries; of several for one key the last counts. -/
def ofList (entries : List (α × β)) : OrderedMap α β :=
  entries.foldl (fun m e => m.insert e.1 e.2) empty

omit [DecidableLT α] [KeyOrder α] in
def get? (m : OrderedMap α β) (key : α) : Option β := (m.entries.find? (·.1 = key)).map (·.2)

end OrderedMap

end Crosstab
