import Mathlib.Tactic.Common
import TestCatalog.Text.Utf8

/-!
# Sizes in bytes

The size of a text is the number of bytes of the string that has its characters.
-/

namespace TestCatalog.Proofs

lemma utf8Size_append (s t : Text) :
    Text.utf8Size (s ++ t) = Text.utf8Size s + Text.utf8Size t := by
  have hfold (t : Text) (size : ℕ) :
      t.foldl (fun size c => size + c.utf8Size) size = size + Text.utf8Size t := by
    unfold Text.utf8Size
    induction t generalizing size with
    | nil => rfl
    | cons c t ih =>
      rw [List.foldl_cons, List.foldl_cons, ih, ih (0 + c.utf8Size)]
      omega
  rw [Text.utf8Size, List.foldl_append, hfold t]
  rfl

lemma utf8Size_cons (c : Char) (t : Text) :
    Text.utf8Size (c :: t) = c.utf8Size + Text.utf8Size t := by
  have hsingle : Text.utf8Size [c] = c.utf8Size := Nat.zero_add _
  rw [← List.singleton_append, utf8Size_append, hsingle]

lemma utf8Size_pos {t : Text} (h : t ≠ []) : 0 < Text.utf8Size t := by
  obtain ⟨c, t, rfl⟩ := List.exists_cons_of_ne_nil h
  rw [utf8Size_cons]
  exact Nat.add_pos_left c.utf8Size_pos _

lemma utf8Size_mono {s t : Text} (h : s <+: t) : Text.utf8Size s ≤ Text.utf8Size t := by
  obtain ⟨rest, rfl⟩ := h
  rw [utf8Size_append]
  exact Nat.le_add_right _ _

lemma eq_of_prefix_of_le {s t : Text} (h : s <+: t) (hle : Text.utf8Size t ≤ Text.utf8Size s) :
    s = t := by
  obtain ⟨rest, rfl⟩ := h
  rw [utf8Size_append] at hle
  by_cases hrest : rest = []
  · rw [hrest, List.append_nil]
  · have hpos := utf8Size_pos hrest
    omega

/-- A character has between one and four bytes. -/
lemma utf8Size_bounds (t : Text) :
    t.length ≤ Text.utf8Size t ∧ Text.utf8Size t ≤ 4 * t.length := by
  induction t with
  | nil => exact ⟨Nat.le_refl _, Nat.le_refl _⟩
  | cons c t ih =>
    have hpos := c.utf8Size_pos
    have hle := c.utf8Size_le_four
    rw [utf8Size_cons, List.length_cons]
    omega

theorem utf8ByteSize_ofList (t : Text) : (String.ofList t).utf8ByteSize = Text.utf8Size t := by
  induction t with
  | nil => rfl
  | cons c t ih =>
    rw [String.ofList_cons, String.utf8ByteSize_append, String.utf8ByteSize_singleton, ih,
      utf8Size_cons]

end TestCatalog.Proofs
