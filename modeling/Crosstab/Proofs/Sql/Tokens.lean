import Mathlib.Data.List.Basic
import Crosstab.Proofs.Double.Digits
import Crosstab.Sql.Printer
import Crosstab.Sql.Reader

/-!
# Reading SQL texts

What stands at the front of a text is read back if what follows cannot be taken for more of it. A
reader lists the words that may follow.
-/

namespace Crosstab.Sql

/-! ## Words -/

theorem isPrefixOf?_eq_some_iff {front cs rest : List Char} :
    front.isPrefixOf? cs = some rest ↔ cs = front ++ rest := by
  induction front generalizing cs with
  | nil => simp [List.isPrefixOf?, eq_comm]
  | cons c front ih =>
    cases cs with
    | nil => simp [List.isPrefixOf?]
    | cons d cs =>
      by_cases same : c = d
      · simp [List.isPrefixOf?, same, ih]
      · simp [List.isPrefixOf?, same, Ne.symm same]

theorem after_append (word : String) (rest : List Char) :
    after word (word.toList ++ rest) = some rest :=
  isPrefixOf?_eq_some_iff.2 rfl

/-- No text begins with both words. -/
def Clash (v w : String) : Prop := ¬ v.toList <+: w.toList ∧ ¬ w.toList <+: v.toList

instance (v w : String) : Decidable (Clash v w) := inferInstanceAs (Decidable (_ ∧ _))

theorem prefix_of_after {word : String} {cs rest : List Char} (h : after word cs = some rest) :
    word.toList <+: cs := by
  rw [isPrefixOf?_eq_some_iff.1 h]
  exact List.prefix_append ..

theorem after_eq_none {v w : String} (clash : Clash v w) {cs : List Char} (h : w.toList <+: cs) :
    after v cs = none := by
  by_contra some
  obtain ⟨rest, read⟩ := Option.ne_none_iff_exists'.1 some
  exact (List.prefix_or_prefix_of_prefix (prefix_of_after read) h).elim clash.1 clash.2

/-- A text is at its end, or goes on with one of the words. -/
def Follows (words : List String) (rest : List Char) : Prop :=
  rest = [] ∨ ∃ w ∈ words, w.toList <+: rest

section
variable {words : List String} {rest : List Char}

theorem follows_word {w : String} (mem : w ∈ words) (rest : List Char) :
    Follows words (w.toList ++ rest) := .inr ⟨w, mem, List.prefix_append ..⟩

theorem Follows.mono {more : List String} (h : Follows words rest) (sub : words ⊆ more) :
    Follows more rest :=
  h.imp_right fun ⟨w, mem, front⟩ => ⟨w, sub mem, front⟩

theorem after_of_follows {v : String} (h : Follows words rest) (proper : v.toList ≠ [])
    (clash : ∀ w ∈ words, Clash v w) : after v rest = none := by
  obtain rfl | ⟨w, mem, front⟩ := h
  · by_contra some
    obtain ⟨rest, read⟩ := Option.ne_none_iff_exists'.1 some
    exact proper (List.prefix_nil.1 (prefix_of_after read))
  · exact after_eq_none (clash w mem) front

/-- The first character of what follows. -/
theorem head?_of_follows {p : Char → Bool} (h : Follows words rest)
    (each : ∀ w ∈ words, w.toList.head?.any p = true) : ∀ c ∈ rest.head?, p c = true := by
  obtain rfl | ⟨w, mem, more, rfl⟩ := h
  · exact nofun
  · intro c hc
    have first := each w mem
    cases front : w.toList with
    | nil => simp [front] at first
    | cons d ds =>
      obtain rfl : d = c := by simpa [front] using hc
      simpa [front] using first

end

/-- The reader takes the text for the value wherever one of the words follows. -/
def ReadsTo {α : Type} (read : Reader α) (text : List Char) (value : α) (ends : List String) :
    Prop := ∀ rest, Follows ends rest → read (text ++ rest) = some (value, rest)

theorem ReadsTo.mono {α : Type} {read : Reader α} {text : List Char} {value : α}
    {ends fewer : List String} (h : ReadsTo read text value ends) (sub : fewer ⊆ ends) :
    ReadsTo read text value fewer :=
  fun rest follows => h rest (follows.mono sub)

theorem readWhile_append {p : Char → Bool} {front rest : List Char} (all : front.all p = true)
    (stop : ∀ c ∈ rest.head?, (!p c) = true) : readWhile p (front ++ rest) = (front, rest) :=
  Prod.ext_iff.2 (takeWhile_dropWhile_append (List.all_eq_true.1 all)
    fun c hc => by simpa using stop c hc)

/-! ## Quoted texts -/

theorem mem_doubled_iff {quote c : Char} {cs : List Char} : c ∈ doubled quote cs ↔ c ∈ cs := by
  induction cs with
  | nil => rfl
  | cons d cs ih =>
    rw [doubled]
    split
    · next same => rw [List.mem_cons, List.mem_cons, ← or_assoc, or_self, List.mem_cons, ih, same]
    · rw [List.mem_cons, List.mem_cons, ih]

theorem mem_quoted_iff {quote c : Char} (other : c ≠ quote) {text : String} :
    c ∈ (quoted quote text).toList ↔ c ∈ text.toList := by
  simp [quoted, mem_doubled_iff, other]

theorem readDoubled_other {quote c : Char} (h : c ≠ quote) (rest : List Char) :
    readDoubled quote (c :: rest) =
      (readDoubled quote rest).map fun (text, rest) => (c :: text, rest) := by
  cases rest <;> simp [readDoubled, h]

section
variable {quote : Char} {rest : List Char} (stop : ∀ c ∈ rest.head?, (c != quote) = true)
include stop

theorem readDoubled_doubled (text : List Char) :
    readDoubled quote (doubled quote text ++ quote :: rest) = some (text, rest) := by
  induction text with
  | nil =>
    cases rest with
    | nil => simp [doubled, readDoubled]
    | cons c rest =>
      have other : c ≠ quote := by simpa using stop c rfl
      simp [doubled, readDoubled, other]
  | cons c text ih =>
    by_cases same : c = quote
    · subst same
      simp [doubled, readDoubled, ih]
    · simp [doubled, readDoubled_other same, same, ih]

theorem readQuoted_quoted (text : String) :
    readQuoted quote ((quoted quote text).toList ++ rest) = some (text, rest) := by
  simp [readQuoted, quoted, readDoubled_doubled stop]

end

theorem readQuoted_eq_none {quote : Char} {words : List String} {rest : List Char}
    (follows : Follows words rest)
    (apart : ∀ w ∈ words, w.toList.head?.any (· != quote) = true) : readQuoted quote rest = none := by
  have other := head?_of_follows follows apart
  cases rest with
  | nil => rfl
  | cons c rest => exact if_neg (by simpa using other c rfl)

theorem readsTo_quoted (quote : Char) (text : String) {ends : List String}
    (apart : ∀ w ∈ ends, w.toList.head?.any (· != quote) = true) :
    ReadsTo (readQuoted quote) (quoted quote text).toList text ends :=
  fun _ follows => readQuoted_quoted (head?_of_follows follows apart) text

/-! ## Clauses and lists -/

section
variable {α β : Type}

/-- What stands before a clause that may be left out is followed by it, or by what follows it. -/
theorem follows_optional (word : String) (ends : List String) {more : List String}
    (sub : ends ⊆ more) (mem : word ∈ more) {rest : List Char} (follows : Follows ends rest)
    (optional : Option α) (text : α → List Char) :
    Follows more ((optional.elim [] fun a => word.toList ++ text a) ++ rest) := by
  cases optional with
  | none => exact follows.mono sub
  | some a =>
    rw [Option.elim_some, List.append_assoc]
    exact follows_word mem _

theorem readsTo_optional {word : String} {read : Reader β} {text : α → List Char} {value : α → β}
    {ends : List String} (proper : word.toList ≠ []) (clash : ∀ w ∈ ends, Clash word w)
    (optional : Option α) (each : ∀ a ∈ optional, ReadsTo read (text a) (value a) ends) :
    ReadsTo (readOptional word read) (optional.elim [] fun a => word.toList ++ text a)
      (optional.map value) ends := by
  intro rest follows
  cases optional with
  | none => simp [readOptional, after_of_follows follows proper clash]
  | some a => simp [readOptional, after_append, each a rfl rest follows]

variable {item : Reader β} {text : α → List Char} {value : α → β} {last : List String}
  {separator : String}

/-- A member of a list is followed by a separator, or by what follows the list. -/
theorem follows_many {ends : List String} (sub : last ⊆ ends) (mem : separator ∈ ends)
    {rest : List Char} (follows : Follows last rest) (as : List α) (text : α → List Char) :
    Follows ends ((as.flatMap fun a => separator.toList ++ text a) ++ rest) := by
  cases as with
  | nil => exact follows.mono sub
  | cons a as =>
    rw [List.flatMap_cons, List.append_assoc, List.append_assoc]
    exact follows_word mem _

/-- The members of a list, each after a separator. -/
theorem readsTo_many (ends : List String) (proper : separator.toList ≠ [])
    (clash : ∀ w ∈ last, Clash separator w) (sub : last ⊆ ends) (mem : separator ∈ ends)
    {as : List α} (each : ∀ a ∈ as, ReadsTo item (text a) (value a) ends) {fuel : Nat}
    (long : as.length < fuel) :
    ReadsTo (readMany separator item fuel) (as.flatMap fun a => separator.toList ++ text a)
      (as.map value) last := by
  intro rest follows
  induction as generalizing fuel with
  | nil =>
    obtain ⟨fuel, rfl⟩ : ∃ n, fuel = n + 1 := ⟨fuel - 1, by omega⟩
    simp [readMany, after_of_follows follows proper clash]
  | cons a as ih =>
    obtain ⟨fuel, rfl⟩ : ∃ n, fuel = n + 1 := ⟨fuel - 1, by omega⟩
    obtain ⟨here, others⟩ := List.forall_mem_cons.1 each
    have next := follows_many sub mem follows as text
    have remaining := ih others (by simpa using long)
    simp [readMany, after_append, here _ next, remaining]

theorem toList_commaList (part : String) (parts : List String) :
    (commaList (part :: parts)).toList =
      part.toList ++ parts.flatMap fun p => ", ".toList ++ p.toList := by
  induction parts generalizing part with
  | nil => simp [commaList]
  | cons next parts ih =>
    have rest := ih next
    rw [commaList, String.intercalate_cons_cons, String.toList_append, String.toList_append,
      ← commaList, rest, List.append_assoc, List.flatMap_cons, List.append_assoc]

theorem mem_commaList_iff {c : Char} (other : c ∉ ", ".toList) {parts : List String} :
    c ∈ (commaList parts).toList ↔ ∃ p ∈ parts, c ∈ p.toList := by
  cases parts with
  | nil => simp [commaList]
  | cons part parts =>
    simp only [toList_commaList, List.mem_append, List.mem_flatMap, List.exists_mem_cons_iff, other,
      false_or]

/-- The members of a list with commas; no member begins as what follows the list does. -/
theorem readsTo_list (ends : List String) {text : α → String}
    (clash : ∀ w ∈ last, Clash ", " w) (sub : last ⊆ ends) (mem : ", " ∈ ends)
    (none : ∀ rest, Follows last rest → item rest = none) {as : List α}
    (each : ∀ a ∈ as, ReadsTo item (text a).toList (value a) ends) {fuel : Nat}
    (long : as.length < fuel) :
    ReadsTo (readList item fuel) (commaList (as.map text)).toList (as.map value) last := by
  intro rest follows
  cases as with
  | nil => simp [readList, commaList, none rest follows]
  | cons a as =>
    obtain ⟨here, others⟩ := List.forall_mem_cons.1 each
    have next := follows_many sub mem follows as fun a => (text a).toList
    have remaining := readsTo_many ends (by decide) clash sub mem others
      (Nat.lt_of_succ_lt long) rest follows
    rw [List.map_cons, toList_commaList, List.flatMap_map, List.append_assoc, readList,
      here _ next]
    simp only [remaining, Option.map_some, List.map_cons]

end

end Crosstab.Sql
