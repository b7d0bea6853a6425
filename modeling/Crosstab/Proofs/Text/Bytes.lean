import Mathlib.Tactic.SplitIfs

/-!
# The order of texts is that of their bytes

Texts are compared by their characters. In UTF-8 a character with a greater number has the greater
bytes, whatever follows it, so this is the order of the bytes as well.
-/

namespace Crosstab.Text

def bytes (s : String) : List UInt8 := s.toUTF8.data.toList

theorem bytes_eq (s : String) : bytes s = s.toList.flatMap String.utf8EncodeChar := by
  have own : s.toByteArray = s.toList.utf8Encode := by
    rw [← String.toByteArray_ofList, String.ofList_toList]
  rw [bytes, String.toUTF8_eq_toByteArray, own, List.utf8Encode, List.data_toByteArray]

/-- The bytes of a lesser character come before those of a greater one, and what follows does not
matter. -/
theorem utf8EncodeChar_append_lt {c d : Char} (h : c < d) (l r : List UInt8) :
    String.utf8EncodeChar c ++ l < String.utf8EncodeChar d ++ r := by
  have less : c.val.toNat < d.val.toNat := UInt32.lt_iff_toNat_lt.1 h
  have small : d.val.toNat < 1114112 := by
    rcases d.valid with low | ⟨-, high⟩
    · exact Nat.lt_trans low (by decide)
    · exact high
  rw [String.utf8EncodeChar.eq_1, String.utf8EncodeChar.eq_1]
  generalize c.val.toNat = v at *
  generalize d.val.toNat = w at *
  split_ifs <;>
    simp (disch := omega) only [List.cons_append, List.nil_append, List.cons_lt_cons_iff,
      UInt8.lt_iff_toNat_lt, ← UInt8.toNat_inj, UInt8.toNat_ofNat', Nat.mod_eq_of_lt] <;>
    omega

theorem append_lt_append (front : List UInt8) {l r : List UInt8} (h : l < r) :
    front ++ l < front ++ r := by
  induction front with
  | nil => exact h
  | cons b front ih => exact List.cons_lt_cons_iff.2 (.inr ⟨rfl, ih⟩)

theorem flatMap_utf8EncodeChar_lt {cs ds : List Char} (h : cs < ds) :
    cs.flatMap String.utf8EncodeChar < ds.flatMap String.utf8EncodeChar := by
  induction cs generalizing ds with
  | nil =>
    cases ds with
    | nil => cases h
    | cons d ds =>
      rw [List.flatMap_nil, List.flatMap_cons]
      cases bytes : String.utf8EncodeChar d with
      | nil => exact absurd bytes String.utf8EncodeChar_ne_nil
      | cons b rest => exact List.nil_lt_cons b _
  | cons c cs ih =>
    cases ds with
    | nil => cases h
    | cons d ds =>
      rw [List.flatMap_cons, List.flatMap_cons]
      rcases List.cons_lt_cons_iff.1 h with less | ⟨rfl, later⟩
      · exact utf8EncodeChar_append_lt less _ _
      · exact append_lt_append _ (ih later)

/-- Of two texts the one that comes first has the bytes that come first. -/
theorem bytes_lt {a b : String} (h : a < b) : bytes a < bytes b := by
  rw [bytes_eq, bytes_eq]
  exact flatMap_utf8EncodeChar_lt (String.lt_iff.1 h)

end Crosstab.Text
