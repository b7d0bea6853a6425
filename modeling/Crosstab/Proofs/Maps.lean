import Mathlib.Data.List.Sort
import Crosstab.OrderedMap

namespace Crosstab.OrderedMap

section
variable {α β : Type} [LT α] [DecidableEq α] [DecidableLT α]

theorem mem_insertEntry_self (key : α) (value : β) (entries : List (α × β)) :
    (key, value) ∈ insertEntry key value entries := by
  fun_induction insertEntry key value entries <;> simp_all

/-- An entry of another key stays. -/
theorem mem_insertEntry_of_ne {key : α} (value : β) {entries : List (α × β)} {e : α × β}
    (h : e ∈ entries) (other : e.1 ≠ key) : e ∈ insertEntry key value entries := by
  fun_induction insertEntry key value entries with
  | case1 => cases h
  | case2 v rest =>
    rcases List.mem_cons.1 h with rfl | h
    · exact absurd rfl other
    · exact List.mem_cons_of_mem _ h
  | case3 k v rest _ _ => exact List.mem_cons_of_mem _ h
  | case4 k v rest _ _ ih =>
    rcases List.mem_cons.1 h with rfl | h
    · exact List.mem_cons_self
    · exact List.mem_cons_of_mem _ (ih h)

variable [KeyOrder α] {entries : List (α × β)} {m : OrderedMap α β} {e : α × β}

theorem mem_foldl_insert (h : e ∈ (entries.foldl (fun m e => m.insert e.1 e.2) m).entries) :
    e ∈ entries ∨ e ∈ m.entries := by
  induction entries generalizing m with
  | nil => exact .inr h
  | cons first rest ih =>
    rcases ih h with h | h
    · exact .inl (List.mem_cons_of_mem _ h)
    · rcases mem_insertEntry h with rfl | h
      · exact .inl List.mem_cons_self
      · exact .inr h

theorem mem_of_mem_ofList (h : e ∈ (ofList entries).entries) : e ∈ entries := by
  rcases mem_foldl_insert h with h | h
  · exact h
  · cases h

/-- An entry stays when no entry of another value comes for its key. -/
theorem mem_foldl_insert_of_mem (h : e ∈ m.entries) (alone : ∀ a ∈ entries, a.1 = e.1 → a = e) :
    e ∈ (entries.foldl (fun m e => m.insert e.1 e.2) m).entries := by
  induction entries generalizing m with
  | nil => exact h
  | cons first rest ih =>
    obtain ⟨here, later⟩ := List.forall_mem_cons.1 alone
    refine ih ?_ later
    by_cases same : first.1 = e.1
    · rw [here same]
      exact mem_insertEntry_self _ _ _
    · exact mem_insertEntry_of_ne _ h (Ne.symm same)

theorem mem_ofList_iff (apart : ∀ a ∈ entries, ∀ b ∈ entries, a.1 = b.1 → a = b) :
    e ∈ (ofList entries).entries ↔ e ∈ entries := by
  constructor
  · exact mem_of_mem_ofList
  · intro h
    obtain ⟨before, after, rfl⟩ := List.append_of_mem h
    rw [ofList, List.foldl_append, List.foldl_cons]
    refine mem_foldl_insert_of_mem (mem_insertEntry_self _ _ _) fun a ha same => ?_
    exact apart a (by simp [ha]) e h same

end

/-- A key that no entry has is not found. -/
theorem find?_eq_none_of_not_mem {α β : Type} [DecidableEq α] {entries : List (α × β)} {key : α}
    (absent : key ∉ entries.map (·.1)) : entries.find? (·.1 = key) = none := by
  apply List.find?_eq_none.2
  intro e mem same
  apply absent
  rw [← of_decide_eq_true same]
  exact List.mem_map_of_mem mem

section
variable {α β : Type} [LT α] [Std.Irrefl fun a b : α => a < b] {m n : OrderedMap α β}

theorem ne_of_lt {a b : α} (h : a < b) : a ≠ b := by
  rintro rfl
  exact Std.Irrefl.irrefl (r := fun a b : α => a < b) a h

theorem nodup_keys (m : OrderedMap α β) : (m.entries.map (·.1)).Nodup :=
  List.pairwise_map.2 (m.sorted.imp ne_of_lt)

theorem entries_apart (m : OrderedMap α β) :
    ∀ a ∈ m.entries, ∀ b ∈ m.entries, a.1 = b.1 → a = b :=
  fun _ ha _ hb same => List.inj_on_of_nodup_map m.nodup_keys ha hb same

/-- A map is given by its entries. -/
theorem eq_of_mem_iff [KeyOrder α] (h : ∀ e, e ∈ m.entries ↔ e ∈ n.entries) : m = n := by
  have irrefl : Std.Irrefl fun a b : α × β => a.1 < b.1 := ⟨fun a lt => ne_of_lt lt rfl⟩
  have antisymm : Std.Antisymm fun a b : α × β => a.1 < b.1 :=
    ⟨fun a b lt gt => absurd rfl (ne_of_lt (KeyOrder.trans lt gt))⟩
  exact ext_entries (m.sorted.eq_of_mem_iff n.sorted h)

variable [DecidableEq α] {key : α} {value : β}

theorem get?_eq_some_iff : m.get? key = some value ↔ (key, value) ∈ m.entries := by
  constructor
  · intro h
    obtain ⟨e, found, rfl⟩ := Option.map_eq_some_iff.1 h
    have same : e.1 = key := by simpa using List.find?_some found
    exact same ▸ List.mem_of_find?_eq_some found
  · intro h
    have some : (m.entries.find? (·.1 = key)).isSome := List.find?_isSome.2 ⟨_, h, by simp⟩
    obtain ⟨e, found⟩ := Option.isSome_iff_exists.1 some
    have same : e.1 = key := by simpa using List.find?_some found
    have eq : e = (key, value) := m.entries_apart e (List.mem_of_find?_eq_some found) _ h same
    rw [get?, found, Option.map_some, eq]

theorem ofList_entries [DecidableLT α] [KeyOrder α] (m : OrderedMap α β) : ofList m.entries = m :=
  eq_of_mem_iff fun _ => mem_ofList_iff m.entries_apart

section
variable [DecidableLT α] [KeyOrder α] (m : OrderedMap α β) (key : α) (value : β)

theorem get?_insert_self : (m.insert key value).get? key = some value :=
  get?_eq_some_iff.2 (mem_insertEntry_self _ _ _)

theorem get?_insert_of_ne {other : α} (h : other ≠ key) :
    (m.insert key value).get? other = m.get? other := by
  apply Option.ext
  intro v
  rw [get?_eq_some_iff, get?_eq_some_iff]
  constructor
  · intro mem
    obtain same | mem := mem_insertEntry mem
    · exact absurd (congrArg Prod.fst same) h
    · exact mem
  · intro mem
    exact mem_insertEntry_of_ne _ mem h

end

end

end Crosstab.OrderedMap
