import TestCatalog.Proofs.ByteSizes
import TestCatalog.Proofs.FilteredBlocks
import TestCatalog.Proofs.Replacement

/-!
# Plain tables

A keyword table may hold its test cases and nothing else, on lines that the filter leaves alone.
Such a table is filtered to these lines.
-/

namespace TestCatalog.Proofs

/-! ## Lines -/

/-- The filter of keyword tables leaves the line alone. -/
def IsPlain (line : Text) : Prop :=
  '\n' ∉ line ∧ '*' ∉ line ∧ goesOn line = false ∧ Dialect.dropContinuationMark line = line

instance (line : Text) : Decidable (IsPlain line) :=
  inferInstanceAs (Decidable (_ ∧ _))

def sectionMarker : Text :=
  Dialect.keywordTable.profile.indicator

def tableText (ls : List Text) : Text :=
  terminated (sectionMarker :: ls)

variable {ls : List Text}

lemma map_joinSpan_spans (h : ∀ line ∈ ls, goesOn line = false) :
    (spans ls).map (joinSpan []) = ls := by
  induction ls with
  | nil => rfl
  | cons line ls ih =>
    have hline := h line List.mem_cons_self
    have hsingle : joinSpan [] [line] = line := by
      rw [joinSpan, hline]
      rfl
    rw [← List.singleton_append, spans_append (.single ls hline), List.map_cons, hsingle,
      ih fun other hother => h other (List.mem_cons_of_mem line hother)]
    rfl

lemma blockRows_table (h : ∀ line ∈ ls, IsPlain line) :
    blockRows .keywordTable (sectionMarker :: ls) = ls := by
  have hsection : ∀ line ∈ ls, isSectionLine line = false := by
    intro line hline
    rw [Bool.eq_false_iff]
    intro hstart
    obtain ⟨rest, rfl⟩ := startsWith_iff.mp hstart
    exact (h _ hline).2.1 List.mem_cons_self
  have htaken : Dialect.caseSection (sectionMarker :: ls) = ls :=
    caseSection_cons (by decide) hsection
  have hclean : ls.map Dialect.dropContinuationMark = ls := by
    conv_rhs => rw [← List.map_id ls]
    exact List.map_congr_left fun line hline => (h line hline).2.2.2
  rw [blockRows, cleanedLines, htaken, hclean]
  exact map_joinSpan_spans fun line hline => (h line hline).2.2.1

/-! ## Tables -/

lemma pieces_tableText (h : ∀ line ∈ ls, IsPlain line) :
    dropEmptyLast (pieces (tableText ls)) = sectionMarker :: ls := by
  have hfeed : ∀ line ∈ sectionMarker :: ls, '\n' ∉ line := by
    rw [List.forall_mem_cons]
    exact ⟨by decide, fun line hline => (h line hline).1⟩
  rw [tableText, pieces_terminated hfeed, dropEmptyLast_concat, if_pos rfl]

lemma length_lines_tableText (h : ∀ line ∈ ls, IsPlain line) :
    (Text.lines (tableText ls)).length = ls.length + 1 := by
  have hlines := congrArg List.length (sourceLines_eq (tableText ls))
  rw [pieces_tableText h, sourceLines, List.length_map, List.length_map, List.length_cons] at hlines
  exact hlines

lemma count_tableText (h : ∀ line ∈ ls, IsPlain line) :
    Text.count sectionMarker (tableText ls) = 1 := by
  have hmarker : sectionMarker ≠ [] := by decide
  have hplain : ∀ c ∈ '\n' :: terminated ls, sectionMarker.head? ≠ some c := by
    rintro c hc hstar
    obtain rfl : '*' = c := Option.some.inj hstar
    rcases List.mem_cons.mp hc with heq | hc
    · exact absurd heq (by decide)
    obtain ⟨line, hline, hmem⟩ := List.mem_flatMap.mp hc
    rcases List.mem_append.mp hmem with hmem | hmem
    · exact (h line hline).2.1 hmem
    · exact absurd hmem (by decide)
  have htext : tableText ls = sectionMarker ++ ('\n' :: terminated ls) := by
    rw [tableText, terminated, List.flatMap_cons, ← terminated, List.append_assoc]
    rfl
  rw [Text.count, htext, countFrom_append_needle hmarker, ← List.append_nil ('\n' :: _),
    countFrom_append_left hmarker hplain]
  rfl

theorem filter_tableText (h : ∀ line ∈ ls, IsPlain line) :
    Dialect.keywordTable.filter (tableText ls) = .ok (Text.join "\n" ls) := by
  refine filter_eq_ok_iff.mpr ⟨fun _ => (count_tableText h).le, ?_⟩
  rw [sourceLines_eq, blockRows_content, pieces_tableText h, blockRows_table h]

/-- A cursor sees the lines of a plain table that ends with a line that is not empty. -/
theorem blockLines_join (h : ∀ line ∈ ls, IsPlain line) {last : Text} (hlast : IsPlain last)
    (hne : last ≠ []) :
    blockLines (Text.join "\n" (ls ++ [last])) = (ls ++ [last]).map Text.trimEnd := by
  have hfeed : ∀ line ∈ ls ++ [last], '\n' ∉ line := by
    simp only [List.forall_mem_append, List.forall_mem_singleton]
    exact ⟨fun line hline => (h line hline).1, hlast.1⟩
  rw [blockLines_eq, pieces_join (by simp) hfeed, dropEmptyLast_concat, if_neg hne]

/-! ## Sizes -/

lemma length_tableText (ls : List Text) :
    (tableText ls).length = sectionMarker.length + 1 + (terminated ls).length := by
  rw [tableText, terminated, List.flatMap_cons, ← terminated, List.length_append, List.length_append]
  rfl

end TestCatalog.Proofs
