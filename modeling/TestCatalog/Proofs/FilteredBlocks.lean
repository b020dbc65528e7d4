import TestCatalog.Proofs.Continuations
import TestCatalog.Rename.Inject

/-!
# Lines of filtered blocks

Each line of a filtered block begins on a line of its source. If names are due on the source lines
where block lines begin, then issuing them issues these lines of the block.
-/

namespace TestCatalog.Proofs

/-! ## Lines without their ends -/

/-- The lines of a source without the characters that end them. -/
def sourceLines (source : Text) : List Text :=
  (Text.lines source).map Injection.content

lemma exists_content (t : Text) : ∃ r, AllBlank r ∧ t = Injection.content t ++ r := by
  let p : Char → Bool := fun c => c = '\n' || c = '\r'
  have hblank : AllBlank (t.reverse.takeWhile p) := by
    intro c hc
    have hc : p c = true := List.mem_takeWhile_imp hc
    have hend : c = '\n' ∨ c = '\r' := by simpa [p] using hc
    rcases hend with rfl | rfl <;> decide
  refine ⟨(t.reverse.takeWhile p).reverse, allBlank_reverse.mpr hblank, ?_⟩
  have happend := congrArg List.reverse (List.takeWhile_append_dropWhile (p := p) (l := t.reverse))
  rw [List.reverse_append, List.reverse_reverse] at happend
  exact happend.symm

lemma content_append_right {r : Text} (hr : ∀ c ∈ r, c = '\n' ∨ c = '\r') (t : Text) :
    Injection.content (t ++ r) = Injection.content t := by
  have hnil : Text.dropEndWhile (fun c => c = '\n' || c = '\r') r = [] := by
    unfold Text.dropEndWhile
    rw [List.reverse_eq_nil_iff, List.dropWhile_eq_nil_iff]
    intro c hc
    simpa using hr c (List.mem_reverse.mp hc)
  unfold Injection.content
  rw [dropEndWhile_append, if_pos hnil]

lemma content_dropReturn (t : Text) : Injection.content (Text.dropReturn t) = Injection.content t :=
  apply_dropReturn Injection.content (content_append_right (by simp)) t

lemma trim_content (t : Text) : Text.trim (Injection.content t) = Text.trim t := by
  obtain ⟨r, hr, h⟩ := exists_content t
  conv_rhs => rw [h, trim_append_right hr]

theorem sourceLines_eq (source : Text) :
    sourceLines source = (dropEmptyLast (pieces source)).map Injection.content := by
  have hreturn : Injection.content ∘ Text.dropReturn = Injection.content := funext content_dropReturn
  simp [sourceLines, Text.lines, dropEmptyLast, pieces, hreturn]

lemma prefix_append_blank {s : Text} (hs : ∀ c ∈ s, Text.isBlank c = false) {r : Text}
    (hr : AllBlank r) (t : Text) : s <+: t ++ r ↔ s <+: t := by
  refine ⟨fun h => ?_, fun h => h.trans (List.prefix_append t r)⟩
  induction t generalizing s with
  | nil =>
    cases s with
    | nil => exact List.nil_prefix
    | cons c s =>
      have hc := hr c (h.subset List.mem_cons_self)
      rw [hs c List.mem_cons_self] at hc
      cases hc
  | cons c t ih =>
    cases s with
    | nil => exact List.nil_prefix
    | cons c' s =>
      obtain ⟨rfl, htail⟩ := List.cons_prefix_cons.mp h
      have hs' (c : Char) (hc : c ∈ s) := hs c (List.mem_cons_of_mem c' hc)
      exact List.cons_prefix_cons.mpr ⟨rfl, ih hs' htail⟩

lemma startsWith_content {start : Text} (hstart : ∀ c ∈ start, Text.isBlank c = false) (t : Text) :
    Text.startsWith start (Injection.content t) = Text.startsWith start t := by
  obtain ⟨r, hr, h⟩ := exists_content t
  have hleads := prefix_append_blank hstart hr (Injection.content t)
  rw [← h] at hleads
  rw [Bool.eq_iff_iff, startsWith_iff, startsWith_iff, hleads]

/-! ## Cleaned lines -/

def isMarker (line : Text) : Bool :=
  Text.trim line = Dialect.keywordTable.profile.indicator

def isSectionLine (line : Text) : Bool :=
  Text.startsWith "***" line

/-- The lines that can hold documentation, as the filter cleans them. -/
def cleanedLines : Dialect → List Text → List Text
  | .annotatedFunction, ls => ls.map Text.trim
  | .keywordTable, ls => (Dialect.caseSection ls).map Dialect.dropContinuationMark
  | .featureScenario, ls => ls.map Text.trim

/-- The lines of the block that comes of the lines of a source. -/
def blockRows : Dialect → List Text → List Text
  | .annotatedFunction, ls => (spans (cleanedLines .annotatedFunction ls)).map (joinSpan [])
  | .keywordTable, ls => (spans (cleanedLines .keywordTable ls)).map (joinSpan [])
  | .featureScenario, ls => cleanedLines .featureScenario ls

/-- How many lines stand above those that can hold documentation. -/
def linesAbove : Dialect → List Text → ℕ
  | .keywordTable, ls => (ls.takeWhile fun line => !isMarker line).length + 1
  | _, _ => 0

/-- The numbers of the lines on which the lines of the block begin. -/
def rowStarts : Dialect → List Text → List ℕ
  | .annotatedFunction, ls =>
    startsFrom (linesAbove .annotatedFunction ls) (spans (cleanedLines .annotatedFunction ls))
  | .keywordTable, ls =>
    startsFrom (linesAbove .keywordTable ls) (spans (cleanedLines .keywordTable ls))
  | .featureScenario, ls => List.range ls.length

lemma caseSection_eq (ls : List Text) : Dialect.caseSection ls =
    (ls.dropWhile fun line => !isMarker line).tail.takeWhile fun line => !isSectionLine line := by
  have hmarker : (fun line => decide (Text.trim line ≠ Dialect.keywordTable.profile.indicator)) =
      fun line => !isMarker line := by
    funext line
    simp [isMarker]
  unfold Dialect.caseSection
  rw [hmarker]
  rfl

/-- The section ends where a line begins the next one, or with the table. -/
lemma caseSection_append {above inside below : List Text} {marker : Text}
    (habove : ∀ line ∈ above, isMarker line = false) (hmarker : isMarker marker = true)
    (hinside : ∀ line ∈ inside, isSectionLine line = false)
    (hbelow : ∀ line ∈ below.head?, isSectionLine line = true) :
    Dialect.caseSection (above ++ marker :: (inside ++ below)) = inside := by
  rw [caseSection_eq, List.dropWhile_append_of_pos (by simpa using habove),
    List.dropWhile_cons_of_neg (by simp [hmarker]), List.tail_cons,
    List.takeWhile_append_of_pos (by simpa using hinside)]
  cases below with
  | nil => simp
  | cons header rest =>
    have hends := hbelow header rfl
    rw [List.takeWhile_cons_of_neg (by simp [hends]), List.append_nil]

lemma caseSection_cons {inside : List Text} {marker : Text} (hmarker : isMarker marker = true)
    (hinside : ∀ line ∈ inside, isSectionLine line = false) :
    Dialect.caseSection (marker :: inside) = inside := by
  have hend : Dialect.caseSection ([] ++ marker :: (inside ++ [])) = inside :=
    caseSection_append (by simp) hmarker hinside (by simp)
  rwa [List.append_nil, List.nil_append] at hend

lemma isMarker_content (t : Text) : isMarker (Injection.content t) = isMarker t := by
  unfold isMarker
  rw [trim_content]

lemma notMarker_comp_content :
    (fun line => !isMarker line) ∘ Injection.content = fun line => !isMarker line := by
  funext line
  simp [isMarker_content]

lemma isSectionLine_content (t : Text) : isSectionLine (Injection.content t) = isSectionLine t :=
  startsWith_content (by decide) t

lemma dropContinuationMark_content (t : Text) :
    Dialect.dropContinuationMark (Injection.content t) = Dialect.dropContinuationMark t := by
  unfold Dialect.dropContinuationMark
  rw [trim_content]

lemma map_content (f : Text → Text) (hf : ∀ t, f (Injection.content t) = f t) (ls : List Text) :
    (ls.map Injection.content).map f = ls.map f := by
  rw [List.map_map]
  exact List.map_congr_left fun t _ => hf t

lemma cleanedLines_content (d : Dialect) (ls : List Text) :
    cleanedLines d (ls.map Injection.content) = cleanedLines d ls := by
  cases d with
  | annotatedFunction => exact map_content _ trim_content ls
  | keywordTable =>
    have hsection : (fun line => !isSectionLine line) ∘ Injection.content =
        fun line => !isSectionLine line := by
      funext line
      simp [isSectionLine_content]
    rw [cleanedLines, cleanedLines, caseSection_eq, caseSection_eq, List.dropWhile_map,
      notMarker_comp_content, ← List.map_tail, List.takeWhile_map, hsection]
    exact map_content _ dropContinuationMark_content _
  | featureScenario => exact map_content _ trim_content ls

lemma linesAbove_content (d : Dialect) (ls : List Text) :
    linesAbove d (ls.map Injection.content) = linesAbove d ls := by
  cases d with
  | keywordTable =>
    rw [linesAbove, linesAbove, List.takeWhile_map, notMarker_comp_content, List.length_map]
  | _ => rfl

lemma blockRows_content (d : Dialect) (ls : List Text) :
    blockRows d (ls.map Injection.content) = blockRows d ls := by
  cases d <;> simp only [blockRows, cleanedLines_content]

lemma rowStarts_content (d : Dialect) (ls : List Text) :
    rowStarts d (ls.map Injection.content) = rowStarts d ls := by
  cases d <;> simp only [rowStarts, cleanedLines_content, linesAbove_content, List.length_map]

/-! ## Filtered blocks -/

/-- Filtering fails on a second marker of the section alone, and joins the rows of the block. -/
theorem filter_eq_ok_iff {d : Dialect} {source block : Text} : d.filter source = .ok block ↔
    (d = .keywordTable → Text.count Dialect.keywordTable.profile.indicator source ≤ 1) ∧
      block = Text.join "\n" (blockRows d (sourceLines source)) := by
  have hrows := blockRows_content d (Text.lines source)
  unfold sourceLines
  rw [hrows]
  cases d with
  | annotatedFunction =>
    simp [Dialect.filter, blockRows, cleanedLines, joinContinued_eq, eq_comm]
  | keywordTable =>
    by_cases hcount : 1 < Text.count Dialect.keywordTable.profile.indicator source
    · have hmany := Nat.not_le.mpr hcount
      simp [Dialect.filter, hcount, hmany]
    · have hone := Nat.not_lt.mp hcount
      simp [Dialect.filter, blockRows, cleanedLines, joinContinued_eq, eq_comm, hcount, hone]
  | featureScenario =>
    simp [Dialect.filter, blockRows, cleanedLines, eq_comm]

section Characters

variable {c : Char} {t : Text}

lemma mem_of_mem_dropContinuationMark (h : c ∈ Dialect.dropContinuationMark t) : c ∈ t := by
  unfold Dialect.dropContinuationMark at h
  cases hstrip : Text.stripStart? "..." (Text.trim t) with
  | none =>
    simp only [hstrip] at h
    exact mem_of_mem_trim h
  | some rest =>
    simp only [hstrip] at h
    refine mem_of_mem_trim ?_
    rw [stripStart?_eq_some hstrip]
    exact List.mem_append_right _ (mem_of_mem_trim h)

lemma mem_joinSpan {lead : Text} {ls : List Text} (h : c ∈ joinSpan lead ls) :
    c ∈ lead ∨ c = ' ' ∨ ∃ line ∈ ls, c ∈ line := by
  induction ls generalizing lead with
  | nil => exact .inl h
  | cons line ls ih =>
    have hline (hmem : c ∈ lead ++ line) : c ∈ lead ∨ c = ' ' ∨ ∃ l ∈ line :: ls, c ∈ l :=
      (List.mem_append.mp hmem).imp_right fun hmem => .inr ⟨line, List.mem_cons_self, hmem⟩
    rw [joinSpan] at h
    split_ifs at h
    · rcases ih h with hlead | hspace | ⟨line', hline', hmem⟩
      · rcases List.mem_append.mp hlead with hlead | hlead
        · exact hline (mem_of_mem_dropEndWhile (mem_of_mem_dropEndWhile hlead))
        · exact .inr (.inl (List.mem_singleton.mp hlead))
      · exact .inr (.inl hspace)
      · exact .inr (.inr ⟨line', List.mem_cons_of_mem line hline', hmem⟩)
    · exact hline h

lemma flatten_spans (ls : List Text) : (spans ls).flatten = ls := by
  induction ls using span_induction with
  | hnil => rfl
  | hspan span rest h ih => rw [spans_append h, List.flatten_cons, ih]

lemma mem_blockRows {d : Dialect} {ls : List Text} {row : Text} (hrow : row ∈ blockRows d ls)
    (hc : c ∈ row) : c = ' ' ∨ ∃ line ∈ ls, c ∈ line := by
  have hmap {f : Text → Text} (hf : ∀ t, c ∈ f t → c ∈ t) {ls' : List Text} {line : Text}
      (hline : line ∈ ls'.map f) (hc : c ∈ line) : ∃ line ∈ ls', c ∈ line := by
    obtain ⟨line', hline', rfl⟩ := List.mem_map.mp hline
    exact ⟨line', hline', hf _ hc⟩
  have hspans {ls' : List Text} (hrow : row ∈ (spans ls').map (joinSpan [])) :
      c = ' ' ∨ ∃ line ∈ ls', c ∈ line := by
    obtain ⟨span, hspan, rfl⟩ := List.mem_map.mp hrow
    rcases mem_joinSpan hc with hnil | hspace | ⟨line, hline, hmem⟩
    · cases hnil
    · exact .inl hspace
    · refine .inr ⟨line, ?_, hmem⟩
      rw [← flatten_spans ls']
      exact List.mem_flatten_of_mem hspan hline
  cases d with
  | annotatedFunction =>
    refine (hspans hrow).imp_right fun ⟨line, hline, hmem⟩ => ?_
    exact hmap (fun _ => mem_of_mem_trim) hline hmem
  | keywordTable =>
    refine (hspans hrow).imp_right fun ⟨line, hline, hmem⟩ => ?_
    obtain ⟨line', hline', hmem'⟩ := hmap (fun _ => mem_of_mem_dropContinuationMark) hline hmem
    rw [caseSection_eq] at hline'
    have htail := List.mem_of_mem_tail ((List.takeWhile_prefix _).subset hline')
    exact ⟨line', (List.dropWhile_sublist _).subset htail, hmem'⟩
  | featureScenario => exact .inr (hmap (fun _ => mem_of_mem_trim) hrow hc)

end Characters

lemma notMem_sourceLines {source line : Text} (h : line ∈ sourceLines source) : '\n' ∉ line := by
  rw [sourceLines_eq] at h
  obtain ⟨piece, hpiece, rfl⟩ := List.mem_map.mp h
  have hmem : piece ∈ pieces source := mem_of_mem_dropEmptyLast hpiece
  exact fun hfeed => notMem_of_mem_splitOn hmem (mem_of_mem_dropEndWhile hfeed)

lemma notMem_blockRows {d : Dialect} {source row : Text}
    (h : row ∈ blockRows d (sourceLines source)) : '\n' ∉ row := by
  intro hc
  rcases mem_blockRows h hc with hspace | ⟨line, hline, hmem⟩
  · exact absurd hspace (by decide)
  · exact notMem_sourceLines hline hmem

/-- What a cursor sees of a filtered block. -/
theorem blockLines_join_rows (d : Dialect) (source : Text) :
    blockLines (Text.join "\n" (blockRows d (sourceLines source))) =
      (dropEmptyLast (blockRows d (sourceLines source))).map Text.trimEnd := by
  by_cases hnil : blockRows d (sourceLines source) = []
  · rw [hnil]
    rfl
  · rw [blockLines_eq, pieces_join hnil fun row => notMem_blockRows]

/-- Each line that a cursor gives of a filtered block is a row of the block. -/
lemma exists_row_of_line {d : Dialect} {source block line : Text}
    (hblock : d.filter source = .ok block) {k : ℕ} (hline : (blockLines block)[k]? = some line) :
    ∃ row, (blockRows d (sourceLines source))[k]? = some row ∧ Text.trimEnd row = line := by
  obtain ⟨-, rfl⟩ := filter_eq_ok_iff.mp hblock
  rw [blockLines_join_rows, List.getElem?_map, Option.map_eq_some_iff] at hline
  obtain ⟨row, hrow, hline⟩ := hline
  obtain ⟨rest, hrest⟩ := prefix_dropEmptyLast (blockRows d (sourceLines source))
  obtain ⟨hlt, -⟩ := List.getElem?_eq_some_iff.mp hrow
  refine ⟨row, ?_, hline⟩
  rw [← hrest, List.getElem?_append_left hlt]
  exact hrow

/-! ## Issued blocks -/

section Issued

variable {d : Dialect} {n m : ℕ} {t t' : Text}

lemma head?_trim {c : Char} (hc : Text.isBlank c = false) (h : t.head? = some c) :
    (Text.trim t).head? = some c := by
  obtain ⟨l, r, hl, hr, ht⟩ := exists_trim t
  have hhead : ∀ s : Text, AllBlank s → s.head? ≠ some c := by
    intro s hs heq
    have hblank := hs c (List.mem_of_mem_head? heq)
    rw [hc] at hblank
    cases hblank
  rw [ht, List.append_assoc, List.head?_append, Option.or_eq_some_iff] at h
  rcases h with h | ⟨-, h⟩
  · exact absurd h (hhead l hl)
  · rw [List.head?_append, Option.or_eq_some_iff] at h
    rcases h with h | ⟨-, h⟩
    · exact h
    · exact absurd h (hhead r hr)

/-- Neither a line of a table nor the issued one starts as a marker or a continued cell does. -/
lemma head?_trim_issued (h : Issued .keywordTable n m t t') :
    (Text.trim t).head? = some '<' ∧ (Text.trim t').head? = some 'T' := by
  obtain ⟨y, y', -, ht, ht'⟩ := h.trim_eq
  rw [ht, ht']
  exact ⟨rfl, rfl⟩

lemma isMarker_eq_false {c : Char} (h : (Text.trim t).head? = some c) (hc : c ≠ '*') :
    isMarker t = false := by
  refine decide_eq_false fun hmarker => hc ?_
  rw [hmarker] at h
  cases h
  rfl

lemma isSectionLine_eq_false {c : Char} (h : (Text.trim t).head? = some c) (hc : c ≠ '*') :
    isSectionLine t = false := by
  cases hline : isSectionLine t with
  | false => rfl
  | true =>
    obtain ⟨rest, rfl⟩ := startsWith_iff.mp hline
    have hstar := head?_trim (t := "***" ++ rest) (c := '*') (by decide) rfl
    rw [hstar] at h
    cases h
    exact absurd rfl hc

lemma dropContinuationMark_eq_trim {c : Char} (h : (Text.trim t).head? = some c) (hc : c ≠ '.') :
    Dialect.dropContinuationMark t = Text.trim t := by
  unfold Dialect.dropContinuationMark
  cases hstrip : Text.stripStart? "..." (Text.trim t) with
  | none => simp only [hstrip]
  | some rest =>
    rw [stripStart?_eq_some hstrip] at h
    cases h
    exact absurd rfl hc

lemma Issued.dropContinuationMark (h : Issued .keywordTable n m t t') :
    Issued .keywordTable n m (Dialect.dropContinuationMark t) (Dialect.dropContinuationMark t') := by
  obtain ⟨hhead, hhead'⟩ := head?_trim_issued h
  rw [dropContinuationMark_eq_trim hhead (by decide), dropContinuationMark_eq_trim hhead' (by decide)]
  exact h.trim

variable {number : Text → ℕ} {Due : ℕ → Text → Prop} {ls ls' : List Text}

lemma IssuedLines.cleanedLines (h : IssuedLines d number Due 0 ls ls') :
    IssuedLines d number Due (linesAbove d ls) (cleanedLines d ls) (cleanedLines d ls') := by
  cases d with
  | annotatedFunction => exact h.map fun _ _ _ _ => Issued.trim
  | keywordTable =>
    have hmarker (n m : ℕ) (t t' : Text) (h : Issued .keywordTable n m t t') :
        (!isMarker t') = !isMarker t := by
      obtain ⟨hhead, hhead'⟩ := head?_trim_issued h
      rw [isMarker_eq_false hhead (by decide), isMarker_eq_false hhead' (by decide)]
    have hsection (n m : ℕ) (t t' : Text) (h : Issued .keywordTable n m t t') :
        (!isSectionLine t') = !isSectionLine t := by
      obtain ⟨hhead, hhead'⟩ := head?_trim_issued h
      rw [isSectionLine_eq_false hhead (by decide), isSectionLine_eq_false hhead' (by decide)]
    have hlines := ((h.dropWhile hmarker).tail.takeWhile hsection).map
      fun _ _ _ _ => Issued.dropContinuationMark
    rw [Nat.zero_add] at hlines
    rw [Proofs.cleanedLines, Proofs.cleanedLines, caseSection_eq, caseSection_eq]
    exact hlines
  | featureScenario => exact h.map fun _ _ _ _ => Issued.trim

/-- If names are due on lines where rows begin alone, issuing the lines issues the rows. -/
theorem IssuedLines.blockRows (h : IssuedLines d number Due 0 ls ls')
    (hdue : ∀ j name, Due j name → j ∈ rowStarts d ls) :
    IssuedLines d number (fun k name => ∃ j, (rowStarts d ls)[k]? = some j ∧ Due j name) 0
      (blockRows d ls) (blockRows d ls') := by
  have hstarts {starts starts' : List ℕ} (heq : starts = starts') (j : ℕ) :
      starts[0 + j]? = starts'[j]? := by
    rw [heq, Nat.zero_add]
  cases d with
  | annotatedFunction =>
    exact h.cleanedLines.joinSpans (fun j name _ => hdue j name) (hstarts rfl)
  | keywordTable =>
    exact h.cleanedLines.joinSpans (fun j name _ => hdue j name) (hstarts rfl)
  | featureScenario =>
    refine h.cleanedLines.congr fun k name _ hk => ?_
    have hlen : k < ls.length := by
      rw [Nat.zero_add] at hk
      exact hk.trans_eq (List.length_map _)
    have hstart : (rowStarts .featureScenario ls)[k]? = some k := by
      rw [rowStarts, List.getElem?_range hlen]
    rw [hstart]
    simp

end Issued

end TestCatalog.Proofs
