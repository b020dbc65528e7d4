import TestCatalog.Proofs.FilteredBlocks
import TestCatalog.Proofs.ModePartition
import TestCatalog.Proofs.ReportedFailures

/-!
# Reported lines

A block that cannot be assembled is reported at the last line that was read, which is counted in the
block. The filter leaves out the lines above the block and joins lines, so that the last source line
from which the reported line comes may have a greater number. The two numbers agree exactly if no
line was left out or joined so far.
-/

namespace TestCatalog.Proofs

/-! ## Groups of source lines -/

/-- The cleaned lines of a source, in the groups of which the lines of the block are made. -/
def rowGroups : Dialect → List Text → List (List Text)
  | .annotatedFunction, ls => spans (cleanedLines .annotatedFunction ls)
  | .keywordTable, ls => spans (cleanedLines .keywordTable ls)
  | .featureScenario, ls => (cleanedLines .featureScenario ls).map fun line => [line]

/-- How many of the lines that can hold documentation are in the first `n` groups. -/
def linesWithin (d : Dialect) (ls : List Text) (n : ℕ) : ℕ :=
  ((rowGroups d ls).take n).flatten.length

/-- The number of the last source line from which the line `n` of the block comes. -/
def sourceLine (d : Dialect) (ls : List Text) (n : ℕ) : ℕ :=
  linesAbove d ls + linesWithin d ls n

/-- The source lines from which the line with the number `n` of the block comes. -/
def sourceGroup (d : Dialect) (ls : List Text) (n : ℕ) : List Text :=
  (ls.take (sourceLine d ls n)).drop (sourceLine d ls (n - 1))

def cleanLine : Dialect → Text → Text
  | .annotatedFunction => Text.trim
  | .keywordTable => Dialect.dropContinuationMark
  | .featureScenario => Text.trim

/-- The lines that the filter makes of source lines that can hold documentation. -/
def filteredLines : Dialect → List Text → List Text
  | .annotatedFunction, group => Dialect.joinContinued (cleanLine .annotatedFunction) group
  | .keywordTable, group => Dialect.joinContinued (cleanLine .keywordTable) group
  | .featureScenario, group => group.map (cleanLine .featureScenario)

section Groups

variable {d : Dialect} {ls : List Text}

lemma drop_length_takeWhile {α : Type} (p : α → Bool) (l : List α) :
    l.drop (l.takeWhile p).length = l.dropWhile p := by
  have hdrop := congrArg (List.drop (l.takeWhile p).length)
    (List.takeWhile_append_dropWhile (p := p) (l := l))
  rw [List.drop_left] at hdrop
  exact hdrop.symm

/-- The lines that can hold documentation stand in one piece, below the lines above them. -/
lemma exists_cleanedLines (d : Dialect) (ls : List Text) : ∃ count,
    cleanedLines d ls = ((ls.drop (linesAbove d ls)).take count).map (cleanLine d) := by
  have hall (f : Text → Text) : ls.map f = ((ls.drop 0).take ls.length).map f := by
    rw [List.drop_zero, List.take_length]
  cases d with
  | annotatedFunction => exact ⟨ls.length, hall _⟩
  | keywordTable =>
    let below := (ls.dropWhile fun line => !isMarker line).tail
    have hdrop : ls.drop (linesAbove .keywordTable ls) = below := by
      rw [linesAbove, ← List.drop_drop, List.drop_one, drop_length_takeWhile]
    have htake := List.prefix_iff_eq_take.mp
      (List.takeWhile_prefix (l := below) fun line => !isSectionLine line)
    exact ⟨_, by rw [cleanedLines, caseSection_eq, hdrop, ← htake]; rfl⟩
  | featureScenario => exact ⟨ls.length, hall _⟩

lemma flatten_rowGroups (d : Dialect) (ls : List Text) :
    (rowGroups d ls).flatten = cleanedLines d ls := by
  cases d with
  | annotatedFunction => exact flatten_spans _
  | keywordTable => exact flatten_spans _
  | featureScenario => exact List.flatMap_singleton' _

lemma linesWithin_succ {k : ℕ} {group : List Text} (h : (rowGroups d ls)[k]? = some group) :
    linesWithin d ls (k + 1) = linesWithin d ls k + group.length := by
  rw [linesWithin, linesWithin, List.take_add_one, h, List.flatten_append, List.length_append]
  simp

/-- A group stands behind the groups above it. -/
lemma exists_below {k : ℕ} {group : List Text} (h : (rowGroups d ls)[k]? = some group) :
    ∃ below, cleanedLines d ls = ((rowGroups d ls).take k).flatten ++ (group ++ below) := by
  obtain ⟨hk, hgroup⟩ := List.getElem?_eq_some_iff.mp h
  refine ⟨((rowGroups d ls).drop (k + 1)).flatten, ?_⟩
  rw [← flatten_rowGroups, ← List.flatten_cons, ← hgroup, List.getElem_cons_drop,
    ← List.flatten_append, List.take_append_drop]

/-- The lines of a group are the source lines that it comes from, cleaned. -/
lemma map_sourceGroup {k : ℕ} {group : List Text} (h : (rowGroups d ls)[k]? = some group) :
    (sourceGroup d ls (k + 1)).map (cleanLine d) = group := by
  obtain ⟨below, hbelow⟩ := exists_below h
  obtain ⟨count, hcleaned⟩ := exists_cleanedLines d ls
  have hle : linesWithin d ls (k + 1) ≤ count := by
    have htake := List.length_take_le count (ls.drop (linesAbove d ls))
    have hlength := congrArg List.length hbelow
    rw [hcleaned, List.length_map, List.length_append, List.length_append] at hlength
    rw [linesWithin_succ h, linesWithin]
    omega
  have hgroup : ((cleanedLines d ls).take (linesWithin d ls (k + 1))).drop (linesWithin d ls k) =
      group := by
    rw [hbelow, linesWithin_succ h, List.drop_take, Nat.add_sub_cancel_left]
    unfold linesWithin
    rw [List.drop_left, List.take_left]
  rw [← hgroup, hcleaned, ← List.map_take, ← List.map_drop, List.take_take, Nat.min_eq_left hle,
    sourceGroup, sourceLine, sourceLine, Nat.add_sub_cancel, ← List.drop_drop, List.drop_take,
    Nat.add_sub_cancel_left]

lemma Span.alone {span rest : List Text} (h : Span span rest) : Span span [] := by
  induction h with
  | single rest h => exact .single [] h
  | last h => exact .last h
  | more h below ih => exact .more h ih

lemma span_of_mem {ls group : List Text} (h : group ∈ spans ls) : Span group [] := by
  induction ls using span_induction with
  | hnil => cases h
  | hspan span rest hspan ih =>
    rw [spans_append hspan] at h
    rcases List.mem_cons.mp h with rfl | h
    · exact hspan.alone
    · exact ih h

lemma ne_nil_of_mem_rowGroups {group : List Text} (h : group ∈ rowGroups d ls) : group ≠ [] := by
  cases d with
  | annotatedFunction => exact (span_of_mem h).ne_nil
  | keywordTable => exact (span_of_mem h).ne_nil
  | featureScenario =>
    obtain ⟨line, -, rfl⟩ := List.mem_map.mp h
    exact List.cons_ne_nil line []

lemma joinContinued_span {clean : Text → Text} {group lines : List Text}
    (hspan : Span group []) (hlines : lines.map clean = group) :
    Dialect.joinContinued clean lines = [joinSpan [] group] := by
  have halone := spans_append hspan
  rw [List.append_nil] at halone
  rw [joinContinued_eq, hlines, halone]
  rfl

/-- The filter makes each line of the block of the source lines that it comes from. -/
theorem filteredLines_sourceGroup {k : ℕ} {row : Text} (h : (blockRows d ls)[k]? = some row) :
    filteredLines d (sourceGroup d ls (k + 1)) = [row] := by
  cases d with
  | annotatedFunction =>
    rw [blockRows, List.getElem?_map, Option.map_eq_some_iff] at h
    obtain ⟨group, hgroup, rfl⟩ := h
    exact joinContinued_span (span_of_mem (List.mem_of_getElem? hgroup)) (map_sourceGroup hgroup)
  | keywordTable =>
    rw [blockRows, List.getElem?_map, Option.map_eq_some_iff] at h
    obtain ⟨group, hgroup, rfl⟩ := h
    exact joinContinued_span (span_of_mem (List.mem_of_getElem? hgroup)) (map_sourceGroup hgroup)
  | featureScenario =>
    refine map_sourceGroup ?_
    rw [rowGroups, List.getElem?_map]
    exact congrArg (Option.map fun line => [line]) h

lemma length_rowGroups (d : Dialect) (ls : List Text) :
    (rowGroups d ls).length = (blockRows d ls).length := by
  cases d with
  | annotatedFunction => exact (List.length_map _).symm
  | keywordTable => exact (List.length_map _).symm
  | featureScenario => exact List.length_map _

lemma length_le_length_flatten {groups : List (List Text)} (h : ∀ group ∈ groups, group ≠ []) :
    groups.length ≤ groups.flatten.length ∧
      (groups.length = groups.flatten.length ↔ ∀ group ∈ groups, group.length = 1) := by
  induction groups with
  | nil => simp
  | cons group groups ih =>
    obtain ⟨hpos, hrest⟩ := List.forall_mem_cons.mp h
    obtain ⟨hle, heq⟩ := ih hrest
    have hlen := List.length_pos_iff.mpr hpos
    rw [List.length_cons, List.flatten_cons, List.length_append, List.forall_mem_cons, ← heq]
    omega

lemma linesAbove_eq_zero_iff (d : Dialect) (ls : List Text) :
    linesAbove d ls = 0 ↔ d ≠ .keywordTable := by
  cases d <;> simp [linesAbove]

/-- A line of the block does not stand below the source lines that it comes from, and has their
number exactly if no line above it was left out or joined. -/
theorem le_sourceLine {n : ℕ} (hn : n ≤ (blockRows d ls).length) : n ≤ sourceLine d ls n ∧
    (n = sourceLine d ls n ↔
      d ≠ .keywordTable ∧ ∀ group ∈ (rowGroups d ls).take n, group.length = 1) := by
  rw [← length_rowGroups] at hn
  have hmem (group : List Text) (h : group ∈ (rowGroups d ls).take n) : group ≠ [] :=
    ne_nil_of_mem_rowGroups (List.mem_of_mem_take h)
  obtain ⟨hle, heq⟩ := length_le_length_flatten hmem
  rw [List.length_take_of_le hn] at hle heq
  rw [sourceLine, linesWithin, ← linesAbove_eq_zero_iff d ls, ← heq]
  omega

end Groups

/-! ## Failing blocks -/

section Failures

variable {a : Assembler}

/-- A block that fails is left below the lines that were read, of which there is one at least, and
the error is reported at the last of them. -/
theorem readCases_error (c : Cursor) {e : GrammarError} (h : (a.readCases c).result = .error e) :
    ∃ before header taken, taken ≠ [] ∧
      (a.readCases c).journal =
        before ++ [.report (Assembler.failed header e (c.lineNumber + taken.length))] ∧
      c.rest = taken ++ (a.readCases c).cursor.rest := by
  induction c using readCases_induction a with
  | nil n =>
    rw [readCases_nil] at h
    cases h
  | skip n line rest hkind ih =>
    rw [readCases_below hkind] at h ⊢
    obtain ⟨before, header, taken, -, hjournal, hrest⟩ := ih h
    have hrest : rest = taken ++ _ := hrest
    refine ⟨before, header, line :: taken, List.cons_ne_nil _ _, ?_, congrArg (line :: ·) hrest⟩
    rw [hjournal, List.length_cons, Nat.add_right_comm]
    rfl
  | fail n line rest kind e' hkind hbody =>
    rw [readCases_of_error hkind hbody] at h
    cases h
    let reading := bodyBelow a (Text.trim line) ⟨n + 1, rest⟩
    have hreaches : Cursor.Reaches ⟨n + 1, rest⟩ reading.cursor := CaseBody.forward_read _ _ _ _ _
    obtain ⟨taken, hrest, hnumber⟩ := hreaches
    have hnumber : reading.cursor.lineNumber = n + (line :: taken).length := by
      rw [hnumber, List.length_cons, Nat.add_right_comm]
      rfl
    rw [readCases_fail hkind hbody]
    refine ⟨reading.journal, Text.trim line, line :: taken, List.cons_ne_nil _ _, ?_,
      congrArg (line :: ·) hrest⟩
    rw [← hnumber]
  | take n line x y kind body hkind hbody ih =>
    rw [readCases_take hkind hbody] at h ⊢
    obtain ⟨before, header, taken, -, hjournal, hrest⟩ := ih (eq_error_of_map h)
    let case := takenCase a kind (Text.trim line) body
    have hrest : y = taken ++ _ := hrest
    have hnumber : n + (line :: (x ++ taken)).length = n + 1 + x.length + taken.length := by
      rw [List.length_cons, List.length_append]
      omega
    refine ⟨(bodyBelow a (Text.trim line) ⟨n + 1, x ++ y⟩).journal ++
      .report (Assembler.assembled case) :: before, header, line :: (x ++ taken),
      List.cons_ne_nil _ _, ?_, ?_⟩
    · rw [hjournal, hnumber, List.append_assoc, List.cons_append]
    · rw [List.cons_append, List.append_assoc, ← hrest]

/-- Where assembling stops, and what it reports there. -/
theorem assemble_error {block : Text} {e : GrammarError} (h : (a.assemble block).value = .error e) :
    ∃ before header taken, taken ≠ [] ∧ Calm before ∧
      (a.assemble block).journal =
        before ++ [.report (Assembler.failed header e taken.length)] ∧
      blockLines block = taken ++ (a.readCases (.ofText block)).cursor.rest := by
  have hresult : (a.readCases (.ofText block)).result = .error e := h
  have hcandid : Candid (a.assemble block).value (a.assemble block).journal :=
    candid_assemble a block
  obtain ⟨before, header, taken, htaken, hjournal, hrest⟩ := readCases_error _ hresult
  have hassemble : (a.assemble block).journal = (.report (a.started (.ofText block)) :: before) ++
      [.report (Assembler.failed header e taken.length)] := by
    unfold Assembler.assemble
    dsimp only
    rw [hresult, List.append_nil, hjournal, ofText_eq, Nat.zero_add]
    rfl
  rw [h, hassemble, candid_error_iff] at hcandid
  obtain ⟨before', e', heq, hcalm, -⟩ := hcandid
  refine ⟨_, header, taken, htaken, ?_, hassemble, hrest⟩
  rw [(List.append_inj' heq rfl).1]
  exact hcalm

lemma isError_failed (header : Text) (e : GrammarError) (n : ℕ) :
    (Assembler.failed header e n).isError = true := rfl

lemma line_failed (header : Text) (e : GrammarError) (n : ℕ) :
    (Assembler.failed header e n).line = some n := rfl

/-- The last line that was taken comes from a row of the filtered block. -/
lemma exists_last_row {d : Dialect} {source block : Text} (hfilter : d.filter source = .ok block)
    {taken rest : List Text} (htaken : taken ≠ []) (hlines : blockLines block = taken ++ rest) :
    ∃ k row, taken.length = k + 1 ∧ (blockRows d (Text.lines source))[k]? = some row ∧
      taken.getLast? = some (Text.trimEnd row) := by
  obtain ⟨start, last, rfl⟩ := List.eq_nil_or_concat taken |>.resolve_left htaken
  have hlast : (blockLines block)[start.length]? = some last := by
    rw [hlines]
    simp
  obtain ⟨row, hrow, rfl⟩ := exists_row_of_line hfilter hlast
  rw [sourceLines, blockRows_content] at hrow
  exact ⟨start.length, row, by simp, hrow, by simp⟩

/-- A block that cannot be assembled is reported with the number of the last line that was taken.
It is the number of the last source line of which the filter made that line exactly if the dialect
leaves out no lines and none was joined so far. -/
theorem assemble_error_line {source block : Text} {e : GrammarError}
    (hfilter : a.dialect.filter source = .ok block) (hfail : (a.assemble block).value = .error e) :
    let ls := Text.lines source
    ∃ before event taken row, (a.assemble block).journal = before ++ [.report event] ∧
      Calm before ∧ event.isError = true ∧
      blockLines block = taken ++ (a.readCases (.ofText block)).cursor.rest ∧
      taken.getLast? = some (Text.trimEnd row) ∧
      filteredLines a.dialect (sourceGroup a.dialect ls taken.length) = [row] ∧
      event.line = some taken.length ∧
      taken.length ≤ sourceLine a.dialect ls taken.length ∧
      (event.line = some (sourceLine a.dialect ls taken.length) ↔
        a.dialect ≠ .keywordTable ∧
          ∀ group ∈ (rowGroups a.dialect ls).take taken.length, group.length = 1) := by
  intro ls
  obtain ⟨before, header, taken, htaken, hcalm, hjournal, hlines⟩ := assemble_error hfail
  obtain ⟨k, row, hk, hrow, hlast⟩ := exists_last_row hfilter htaken hlines
  have hlength : taken.length ≤ (blockRows a.dialect ls).length := by
    rw [hk]
    exact (List.getElem?_eq_some_iff.mp hrow).1
  obtain ⟨hle, heq⟩ := le_sourceLine hlength
  refine ⟨before, _, taken, row, hjournal, hcalm, isError_failed _ _ _, hlines, hlast, ?_,
    line_failed _ _ _, hle, ?_⟩
  · rw [hk]
    exact filteredLines_sourceGroup hrow
  · rw [line_failed, Option.some_inj]
    exact heq

end Failures

/-! ## A failing table -/

/-- A table whose case has no documentation. -/
def bareTable : Text :=
  "*** Settings ***\nLibrary  Shop\n\n*** Test Cases ***\n<NEW>: Pay\n    Log  paid\n"

def bareBlock : Text :=
  "<NEW>: Pay\nLog  paid"

lemma filter_bareTable : Dialect.keywordTable.filter bareTable = .ok bareBlock := by
  decide +kernel

def bareError : GrammarError :=
  .missingDocumentationMarker "<NEW>: Pay"

lemma readCases_bareBlock : (orderAssembler .both).readCases (.ofText bareBlock) =
    { result := .error bareError
      cursor := ⟨2, []⟩
      journal := [.report (Assembler.failed "<NEW>: Pay" bareError 2)] } := by
  have hkind : (orderAssembler .both).kindOfHeader? (Text.trim "<NEW>: Pay") = some .add := by rfl
  have hcursor : Cursor.ofText bareBlock = ⟨0, ["<NEW>: Pay", "Log  paid"]⟩ := by rfl
  rw [hcursor, readCases_fail hkind (e := bareError) (by rfl)]
  rfl

lemma value_bareBlock : ((orderAssembler .both).assemble bareBlock).value = .error bareError :=
  congrArg Reading.result readCases_bareBlock

theorem assemble_error_line_bareTable :
    Dialect.keywordTable.filter bareTable = .ok bareBlock ∧
      ((orderAssembler .both).assemble bareBlock).value = .error bareError ∧
      ∃ before event taken,
        ((orderAssembler .both).assemble bareBlock).journal = before ++ [.report event] ∧
        blockLines bareBlock =
          taken ++ ((orderAssembler .both).readCases (.ofText bareBlock)).cursor.rest ∧
        event.line = some taken.length ∧
        event.line ≠ some (sourceLine .keywordTable (Text.lines bareTable) taken.length) := by
  refine ⟨filter_bareTable, value_bareBlock, ?_⟩
  obtain ⟨before, event, taken, -, hjournal, -, -, hlines, -, -, hline, -, heq⟩ :=
    assemble_error_line (a := orderAssembler .both) filter_bareTable value_bareBlock
  exact ⟨before, event, taken, hjournal, hlines, hline, fun h => (heq.mp h).1 rfl⟩

/-- The error is reported at a line of another section, though the last line that was taken, the
second line of the block, comes from the sixth line of the table. -/
theorem assemble_error_other_section :
    Dialect.keywordTable.filter bareTable = .ok bareBlock ∧
      ((orderAssembler .both).assemble bareBlock).value = .error bareError ∧
      (∃ before event,
        ((orderAssembler .both).assemble bareBlock).journal = before ++ [.report event] ∧
        event.isError = true ∧ event.line = some 2) ∧
      blockLines bareBlock = (["<NEW>: Pay", "Log  paid"] : List Text) ∧
      ((orderAssembler .both).readCases (.ofText bareBlock)).cursor.rest = [] ∧
      sourceLine .keywordTable (Text.lines bareTable) 2 = 6 ∧
      (Text.lines bareTable)[5]? = some ("    Log  paid" : Text) ∧
      (Text.lines bareTable)[1]? = some ("Library  Shop" : Text) := by
  have hjournal : ((orderAssembler .both).assemble bareBlock).journal =
      [.report ((orderAssembler .both).started (.ofText bareBlock))] ++
        [.report (Assembler.failed "<NEW>: Pay" bareError 2)] := by
    unfold Assembler.assemble
    dsimp only
    rw [readCases_bareBlock]
    rfl
  refine ⟨filter_bareTable, value_bareBlock,
    ⟨_, _, hjournal, isError_failed _ _ _, line_failed _ _ _⟩, by rfl, ?_, by decide +kernel,
    by rfl, by rfl⟩
  rw [readCases_bareBlock]

end TestCatalog.Proofs
