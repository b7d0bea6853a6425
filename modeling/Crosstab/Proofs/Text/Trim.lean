import Crosstab.Proofs.Double.Literal
import Crosstab.Text.Blank

namespace Crosstab.Text

/-- A text is what is left of it, between blank characters. -/
theorem exists_blanks (cs : List Char) :
    ∃ front back, (∀ c ∈ front, isBlank c = true) ∧ (∀ c ∈ back, isBlank c = true) ∧
      cs = front ++ (trim cs ++ back) := by
  have blank {l : List Char} : ∀ c ∈ l.takeWhile isBlank, isBlank c = true :=
    List.all_eq_true.1 List.all_takeWhile
  have kept : trim cs ++ ((cs.dropWhile isBlank).reverse.takeWhile isBlank).reverse =
      cs.dropWhile isBlank := by
    rw [trim, trimEnd, ← List.reverse_append, List.takeWhile_append_dropWhile,
      List.reverse_reverse]
  have whole := List.takeWhile_append_dropWhile (p := isBlank) (l := cs)
  rw [← kept] at whole
  exact ⟨_, _, blank, fun c hc => blank c (List.mem_reverse.1 hc), whole.symm⟩

theorem trim_blanks {front plain back : List Char} (before : ∀ c ∈ front, isBlank c = true)
    (after : ∀ c ∈ back, isBlank c = true) (between : ∀ c ∈ plain, isBlank c = false) :
    trim (front ++ (plain ++ back)) = plain := by
  have keep {l rest : List Char} (all : ∀ c ∈ l, isBlank c = false) (nonempty : l ≠ []) :
      (l ++ rest).dropWhile isBlank = l ++ rest := by
    cases l with
    | nil => exact absurd rfl nonempty
    | cons c l => simp [all c List.mem_cons_self]
  rw [trim, trimEnd, List.dropWhile_append_of_pos before]
  by_cases empty : plain = []
  · subst empty
    have none : (back ++ []).dropWhile isBlank = [] := by
      rw [List.dropWhile_append_of_pos after]
      rfl
    rw [List.append_nil] at none
    rw [List.nil_append, none]
    rfl
  · rw [keep between empty, List.reverse_append,
      List.dropWhile_append_of_pos fun c hc => after c (List.mem_reverse.1 hc)]
    have kept : (plain.reverse ++ []).dropWhile isBlank = plain.reverse ++ [] :=
      keep (fun c hc => between c (List.mem_reverse.1 hc)) (List.reverse_eq_nil_iff.not.2 empty)
    rw [List.append_nil] at kept
    rw [kept, List.reverse_reverse]

/-! ## Numbers -/

theorem isBlank_of_isNumeric {c : Char} (h : isNumeric c = true) : isBlank c = false := by
  have below : 33 ≤ c.toNat ∧ c.toNat < 127 := by
    unfold isNumeric at h
    by_cases digit : c.isDigit = true
    · simp only [Char.isDigit, Bool.and_eq_true, decide_eq_true_eq, ge_iff_le,
        UInt32.le_iff_toNat_le] at digit
      have low : 48 ≤ c.toNat := digit.1
      have high : c.toNat ≤ 57 := digit.2
      omega
    · simp only [digit, Bool.false_or, Bool.or_eq_true, beq_iff_eq] at h
      obtain ((rfl | rfl) | rfl) | rfl := h <;> decide
  simp only [isBlank, Bool.or_eq_false_iff, Bool.and_eq_false_iff, decide_eq_false_iff_not,
    beq_eq_false_iff_ne]
  omega

theorem trim_of_numeric {cs : List Char} (h : cs.all isNumeric = true) : trim cs = cs := by
  have plain (c : Char) (hc : c ∈ cs) : isBlank c = false :=
    isBlank_of_isNumeric (List.all_eq_true.1 h c hc)
  have trimmed : trim ([] ++ (cs ++ [])) = cs := trim_blanks nofun nofun plain
  rwa [List.nil_append, List.append_nil] at trimmed

end Crosstab.Text
