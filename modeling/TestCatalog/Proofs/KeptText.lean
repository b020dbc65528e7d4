import TestCatalog.Proofs.CaseSections

/-!
# Kept text

Filtering joins lines, yet it loses no text: but for blanks and backslashes, a block holds the
characters of the lines that were kept, in their order. Each line that goes on absorbs the line
below it, and no line of the block goes on.
-/

namespace TestCatalog.Proofs

/-- The characters of a text that are neither blanks nor backslashes. -/
def solid (t : Text) : Text :=
  t.filter fun c => !Text.isBlank c && c ≠ '\\'

/-- A line of a keyword table, trimmed and without one mark that continues its cell. -/
def withoutMark (line : Text) : Text :=
  (Text.stripStart? "..." (Text.trim line)).getD (Text.trim line)

/-- The source lines that the filter keeps. -/
def keptLines : Dialect → Text → List Text
  | .annotatedFunction, source => Text.lines source
  | .keywordTable, source => (Dialect.caseSection (Text.lines source)).map withoutMark
  | .featureScenario, source => Text.lines source

/-- The lines that stand directly below a line that goes on. -/
def absorbed : List Text → List Text
  | line :: next :: rest =>
    if goesOn line then next :: absorbed (next :: rest) else absorbed (next :: rest)
  | _ => []

/-! ## Solid characters -/

section Solid

variable {t : Text}

lemma solid_append (s t : Text) : solid (s ++ t) = solid s ++ solid t :=
  List.filter_append s t

lemma solid_of_allBlank (h : AllBlank t) : solid t = [] := by
  refine List.filter_eq_nil_iff.mpr fun c hc => ?_
  simp [h c hc]

lemma solid_trim (t : Text) : solid (Text.trim t) = solid t := by
  obtain ⟨l, r, hl, hr, ht⟩ := exists_trim t
  conv_rhs => rw [ht, solid_append, solid_append, solid_of_allBlank hl, solid_of_allBlank hr,
    List.nil_append, List.append_nil]

lemma solid_trimEnd (t : Text) : solid (Text.trimEnd t) = solid t := by
  obtain ⟨r, hr, ht⟩ := exists_trimEnd t
  conv_rhs => rw [ht, solid_append, solid_of_allBlank hr, List.append_nil]

lemma solid_dropEndWhile (t : Text) : solid (Text.dropEndWhile (· = '\\') t) = solid t := by
  have hparts := congrArg List.reverse
    (List.takeWhile_append_dropWhile (p := fun c => decide (c = '\\')) (l := t.reverse))
  rw [List.reverse_append, List.reverse_reverse] at hparts
  have hnone : solid (t.reverse.takeWhile fun c => decide (c = '\\')).reverse = [] := by
    refine List.filter_eq_nil_iff.mpr fun c hc => ?_
    have hbackslash := List.mem_takeWhile_imp (List.mem_reverse.mp hc)
    simp_all
  conv_rhs => rw [← hparts, solid_append, hnone, List.append_nil]
  rfl

lemma solid_waiting (line : Text) : solid (waiting line) = solid line := by
  rw [waiting, solid_trimEnd, solid_dropEndWhile]

lemma solid_dropContinuationMark (line : Text) :
    solid (Dialect.dropContinuationMark line) = solid (withoutMark line) := by
  unfold Dialect.dropContinuationMark withoutMark
  cases hstrip : Text.stripStart? "..." (Text.trim line) with
  | none => simp only [hstrip, Option.getD_none]
  | some rest => simp only [hstrip, Option.getD_some, solid_trim]

lemma Span.solid_joinSpan {span rest : List Text} (h : Span span rest) (lead : Text) :
    solid (joinSpan lead span) = solid lead ++ solid span.flatten := by
  have hspace : solid " " = [] := by decide
  -- each line but the last one is put behind what waits, which only grows
  induction h generalizing lead with
  | @single line rest h =>
    rw [joinSpan, h, List.flatten_singleton, ← solid_append]
    rfl
  | @last line h =>
    rw [joinSpan, if_pos h, joinSpan, solid_append, solid_waiting, hspace, List.append_nil,
      List.flatten_singleton, solid_append]
  | @more line span rest h below ih =>
    rw [joinSpan, if_pos h, ih, solid_append, solid_waiting, hspace, List.append_nil,
      List.flatten_cons, solid_append, solid_append, List.append_assoc]

lemma solid_spans (ls : List Text) :
    solid ((spans ls).map (joinSpan [])).flatten = solid ls.flatten := by
  induction ls using span_induction with
  | hnil => rfl
  | hspan span rest h ih =>
    rw [spans_append h, List.map_cons, List.flatten_cons, solid_append, h.solid_joinSpan, ih,
      List.flatten_append, solid_append]
    rfl

lemma solid_join (ls : List Text) : solid (Text.join "\n" ls) = solid ls.flatten := by
  have hfeed : solid "\n" = [] := by decide
  induction ls with
  | nil => rfl
  | cons line ls ih =>
    by_cases hls : ls = []
    · rw [hls]
      simp [Text.join]
    · rw [join_cons _ _ hls, solid_append, solid_append, hfeed, List.nil_append, ih,
        List.flatten_cons, solid_append]

lemma solid_flatten_map {f g : Text → Text} (h : ∀ line, solid (f line) = solid (g line))
    (ls : List Text) : solid (ls.map f).flatten = solid (ls.map g).flatten := by
  induction ls with
  | nil => rfl
  | cons line ls ih =>
    rw [List.map_cons, List.map_cons, List.flatten_cons, List.flatten_cons, solid_append,
      solid_append, h, ih]

lemma solid_cleanedLines (d : Dialect) (source : Text) :
    solid (cleanedLines d (Text.lines source)).flatten = solid (keptLines d source).flatten := by
  have htrim := solid_flatten_map (f := Text.trim) (g := id) solid_trim (Text.lines source)
  rw [List.map_id] at htrim
  cases d with
  | annotatedFunction => exact htrim
  | keywordTable => exact solid_flatten_map solid_dropContinuationMark _
  | featureScenario => exact htrim

lemma solid_blockRows (d : Dialect) (ls : List Text) :
    solid (blockRows d ls).flatten = solid (cleanedLines d ls).flatten := by
  cases d with
  | annotatedFunction => exact solid_spans _
  | keywordTable => exact solid_spans _
  | featureScenario => rfl

end Solid

/-! ## Absorbed lines -/

lemma goesOn_append {lead : Text} (hlead : goesOn lead = false) (line : Text) :
    goesOn (lead ++ line) = goesOn line := by
  have hjoined := isContinued_append lead line hlead
  rw [← hjoined, Dialect.isContinued, List.head?_reverse, goesOn]

/-- The space behind a line that waits keeps the joined line from going on. -/
lemma goesOn_joinSpan {lead : Text} (hlead : goesOn lead = false) (span : List Text) :
    goesOn (joinSpan lead span) = false := by
  induction span generalizing lead with
  | nil => exact hlead
  | cons line span ih =>
    rw [joinSpan]
    split_ifs with hgoes
    · refine ih ?_
      rw [goesOn, List.getLast?_append]
      rfl
    · rw [goesOn_append hlead, Bool.eq_false_iff]
      exact hgoes

lemma spans_eq_nil_iff {ls : List Text} : spans ls = [] ↔ ls = [] := by
  refine ⟨fun h => ?_, fun h => h ▸ rfl⟩
  rw [← flatten_spans ls, h]
  rfl

lemma length_spans (ls : List Text) : (spans ls).length + (absorbed ls).length = ls.length := by
  induction ls with
  | nil => rfl
  | cons line ls ih =>
    cases ls with
    | nil => cases hgoes : goesOn line <;> simp [spans, absorbed, hgoes]
    | cons next ls =>
      obtain ⟨span, others, hspans⟩ :=
        List.exists_cons_of_ne_nil (mt spans_eq_nil_iff.mp (List.cons_ne_nil next ls))
      rw [hspans] at ih
      rw [spans, absorbed, hspans]
      simp only [List.length_cons] at ih ⊢
      split_ifs
      · simp only [List.length_cons]
        omega
      · simp only [List.length_cons]
        omega

/-! ## Filtered blocks -/

section Blocks

variable {d : Dialect} {source : Text}

lemma blockRows_eq_joined (hd : d ≠ .featureScenario) (ls : List Text) :
    blockRows d ls = (spans (cleanedLines d ls)).map (joinSpan []) := by
  cases d with
  | annotatedFunction => rfl
  | keywordTable => rfl
  | featureScenario => exact absurd rfl hd

lemma length_keptLines (d : Dialect) (source : Text) :
    (keptLines d source).length = (cleanedLines d (Text.lines source)).length := by
  cases d <;> simp [keptLines, cleanedLines]

lemma pieces_rows (source : Text) (h : blockRows d (Text.lines source) ≠ []) :
    pieces (Text.join "\n" (blockRows d (Text.lines source))) = blockRows d (Text.lines source) := by
  have hrows := blockRows_content d (Text.lines source)
  refine pieces_join h fun row hrow => ?_
  rw [← hrows] at hrow
  exact notMem_blockRows hrow

/-- A block holds the solid characters of the kept lines. Where lines are joined, no piece of it goes
on, and it has a piece for each kept line that is not absorbed. -/
theorem filter_keeps_text (d : Dialect) (source : Text) :
    (d = .keywordTable ∧ HoldsTwice sectionMarker source ∧
        d.filter source = .error .multipleSectionMarkers) ∨
      ∃ block, d.filter source = .ok block ∧
        solid block = solid (keptLines d source).flatten ∧
        (d ≠ .featureScenario →
          (∀ piece ∈ pieces block, piece.getLast? ≠ some '\\') ∧
            (keptLines d source ≠ [] →
              (pieces block).length + (absorbed (cleanedLines d (Text.lines source))).length =
                (keptLines d source).length)) := by
  cases hfilter : d.filter source with
  | error e =>
    obtain ⟨hd, htwice, rfl⟩ := filter_eq_error_iff.mp hfilter
    exact .inl ⟨hd, htwice, rfl⟩
  | ok block =>
    obtain ⟨-, hblock⟩ := filter_eq_ok_iff.mp hfilter
    rw [sourceLines, blockRows_content] at hblock
    refine .inr ⟨block, rfl, ?_, fun hd => ⟨fun piece hpiece hlast => ?_, fun hkept => ?_⟩⟩
    · rw [hblock, solid_join, solid_blockRows, solid_cleanedLines]
    · by_cases hrows : blockRows d (Text.lines source) = []
      · rw [hblock, hrows] at hpiece
        rw [List.mem_singleton.mp hpiece] at hlast
        cases hlast
      · rw [hblock, pieces_rows source hrows, blockRows_eq_joined hd] at hpiece
        obtain ⟨span, -, rfl⟩ := List.mem_map.mp hpiece
        have hends : goesOn (joinSpan [] span) = false := goesOn_joinSpan rfl span
        rw [goesOn, decide_eq_false_iff_not] at hends
        exact hends hlast
    · have hcleaned : cleanedLines d (Text.lines source) ≠ [] := by
        rwa [← List.length_pos_iff, ← length_keptLines, List.length_pos_iff]
      have hrows : blockRows d (Text.lines source) ≠ [] := by
        rw [blockRows_eq_joined hd, Ne, List.map_eq_nil_iff, spans_eq_nil_iff]
        exact hcleaned
      rw [hblock, pieces_rows source hrows, blockRows_eq_joined hd, List.length_map, length_spans,
        length_keptLines]

end Blocks

/-! ## A wrapped comment -/

/-- The second line is a mere backslash, and the last one goes on where the source ends. -/
def wrappedComment : Text :=
  "# <NEW>: \\\\\n  \\\n  Pay by card\n# done \\"

theorem filter_keeps_text_wrapped :
    Dialect.annotatedFunction ≠ .featureScenario ∧
      keptLines .annotatedFunction wrappedComment ≠ [] ∧
      (keptLines .annotatedFunction wrappedComment).length = 4 ∧
      (absorbed (cleanedLines .annotatedFunction (Text.lines wrappedComment))).length = 2 ∧
      ∃ block, Dialect.annotatedFunction.filter wrappedComment = .ok block ∧
        solid block = solid (keptLines .annotatedFunction wrappedComment).flatten ∧
        (∀ piece ∈ pieces block, piece.getLast? ≠ some '\\') ∧ (pieces block).length = 2 := by
  have hd : Dialect.annotatedFunction ≠ .featureScenario := by decide
  have hkept : keptLines .annotatedFunction wrappedComment ≠ [] := by decide +kernel
  have hlength : (keptLines .annotatedFunction wrappedComment).length = 4 := by decide +kernel
  have habsorbed :
      (absorbed (cleanedLines .annotatedFunction (Text.lines wrappedComment))).length = 2 := by
    decide +kernel
  refine ⟨hd, hkept, hlength, habsorbed, ?_⟩
  rcases filter_keeps_text .annotatedFunction wrappedComment with
    ⟨hother, -⟩ | ⟨block, hblock, hsolid, hjoined⟩
  · cases hother
  · obtain ⟨hends, hcount⟩ := hjoined hd
    refine ⟨block, hblock, hsolid, hends, ?_⟩
    have hsum := hcount hkept
    omega

end TestCatalog.Proofs
