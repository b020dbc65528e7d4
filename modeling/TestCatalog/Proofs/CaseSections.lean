import Mathlib.Algebra.Ring.Nat
import TestCatalog.Assembly.Basic
import TestCatalog.Proofs.DeclaredNames
import TestCatalog.Proofs.ModePartition
import TestCatalog.Proofs.PlainTables

/-!
# Case sections

Of a keyword table, the lines from the marker of its case section up to the next section decide the
block. A table in which the text of the marker stands twice is refused, wherever it stands, and a
table without a marker line has an empty block.
-/

namespace TestCatalog.Proofs

/-! ## Counted occurrences -/

/-- A text that holds the needle in two places that do not overlap. -/
def HoldsTwice (needle t : Text) : Prop :=
  ∃ above between below, t = above ++ needle ++ between ++ needle ++ below

section Counts

variable {needle s t : Text} {sep : Char}

lemma countFrom_found (needle : Text) (skip found : ℕ) (t : Text) :
    Text.countFrom needle skip found t = Text.countFrom needle skip 0 t + found := by
  induction t generalizing skip found with
  | nil => exact (Nat.zero_add found).symm
  | cons c t ih =>
    cases skip with
    | succ skip => exact ih skip found
    | zero =>
      rw [Text.countFrom, Text.countFrom]
      split_ifs
      · rw [ih _ (found + 1), ih _ (0 + 1)]
        omega
      · exact ih 0 found

/-- Occurrences are counted from the first one on. -/
lemma count_eq (hneedle : needle ≠ []) (t : Text) : Text.count needle t =
    match Text.cut? needle t with
    | none => 0
    | some (_, after) => Text.count needle after + 1 := by
  induction t with
  | nil =>
    rw [Text.cut?, if_neg hneedle]
    rfl
  | cons c t ih =>
    by_cases hstart : needle <+: c :: t
    · obtain ⟨after, hafter⟩ := hstart
      rw [← hafter, cut?_append_self, Text.count, countFrom_append_needle hneedle, countFrom_found]
      rfl
    · rw [Text.count, countFrom_cons 0 hstart, ← Text.count, ih, cut?_cons hstart]
      cases Text.cut? needle t <;> rfl

lemma count_pos_iff (hneedle : needle ≠ []) : 0 < Text.count needle t ↔ needle <:+: t := by
  rw [count_eq hneedle, ← not_iff_not, ← cut?_eq_none_iff]
  cases Text.cut? needle t <;> simp

/-- A needle that is found once more behind its first place stands in two places. -/
theorem one_lt_count_iff (hneedle : needle ≠ []) : 1 < Text.count needle t ↔ HoldsTwice needle t := by
  rw [count_eq hneedle]
  cases hcut : Text.cut? needle t with
  | none =>
    have hnot := cut?_eq_none_iff.mp hcut
    refine iff_of_false (by simp) ?_
    rintro ⟨above, between, below, rfl⟩
    exact hnot ⟨above, between ++ needle ++ below, by simp⟩
  | some parts =>
    obtain ⟨before, after⟩ := parts
    obtain ⟨ht, hfirst⟩ := cut?_eq_some_iff.mp hcut
    have hmore : 1 < Text.count needle after + 1 ↔ needle <:+: after := by
      rw [← count_pos_iff hneedle]
      omega
    rw [hmore]
    constructor
    · rintro ⟨between, below, hafter⟩
      exact ⟨before, between, below, by rw [ht, ← hafter]; simp⟩
    · rintro ⟨above, between, below, htwice⟩
      -- the first of the two places is not in front of the one that is cut out
      have hle := hfirst above (between ++ needle ++ below) (by simp [htwice])
      have hafter : after <:+ t := ⟨before ++ needle, by rw [ht, List.append_assoc]⟩
      have hrest : between ++ needle ++ below <:+ t := ⟨above ++ needle, by simp [htwice]⟩
      have hlengths := congrArg List.length (ht.symm.trans htwice)
      have hshort : (between ++ needle ++ below).length ≤ after.length := by
        simp only [List.length_append] at hlengths ⊢
        omega
      obtain ⟨gap, hgap⟩ := List.suffix_of_suffix_length_le hrest hafter hshort
      exact ⟨gap ++ between, below, by rw [← hgap]; simp⟩

/-! ## Occurrences line by line -/

lemma prefix_append_sep (hsep : sep ∉ needle) : needle <+: s ++ sep :: t ↔ needle <+: s := by
  refine ⟨fun h => ?_, fun h => h.trans (List.prefix_append s _)⟩
  have hs : s ++ [sep] <+: s ++ sep :: t := ⟨t, by simp⟩
  rcases Nat.lt_or_ge s.length needle.length with hlong | hshort
  · have hlength : (s ++ [sep]).length ≤ needle.length := by
      rw [List.length_append, List.length_singleton]
      exact hlong
    have hmem := (List.prefix_of_prefix_length_le hs h hlength).subset
      (List.mem_append_right s List.mem_cons_self)
    exact absurd hmem hsep
  · exact List.prefix_of_prefix_length_le h (List.prefix_append s _) hshort

/-- No occurrence goes across a character that the needle does not hold. -/
lemma countFrom_append_sep (hneedle : needle ≠ []) (hsep : sep ∉ needle) {skip : ℕ}
    (hskip : skip ≤ s.length) : Text.countFrom needle skip 0 (s ++ sep :: t) =
      Text.countFrom needle skip 0 s + Text.count needle t := by
  induction s generalizing skip with
  | nil =>
    obtain rfl := Nat.le_zero.mp hskip
    have hstart : ¬ needle <+: sep :: t := by
      rw [← List.nil_append (sep :: t), prefix_append_sep hsep, List.prefix_nil]
      exact hneedle
    rw [List.nil_append, countFrom_cons 0 hstart]
    exact (Nat.zero_add _).symm
  | cons c s ih =>
    cases skip with
    | succ skip => exact ih (Nat.le_of_succ_le_succ hskip)
    | zero =>
      have hstarts : Text.startsWith needle (c :: (s ++ sep :: t)) =
          Text.startsWith needle (c :: s) := by
        rw [Bool.eq_iff_iff, startsWith_iff, startsWith_iff, ← List.cons_append,
          prefix_append_sep hsep]
      rw [List.cons_append, Text.countFrom, Text.countFrom, hstarts]
      split_ifs with hstart
      · have hle := (startsWith_iff.mp hstart).length_le
        rw [List.length_cons] at hle
        rw [countFrom_found, countFrom_found needle _ (0 + 1) s, ih (by omega)]
        omega
      · exact ih (Nat.zero_le _)

lemma count_append_sep (hneedle : needle ≠ []) (hsep : sep ∉ needle) (s t : Text) :
    Text.count needle (s ++ sep :: t) = Text.count needle s + Text.count needle t :=
  countFrom_append_sep hneedle hsep (Nat.zero_le _)

lemma count_join (hneedle : needle ≠ []) (hfeed : '\n' ∉ needle) (ps : List Text) :
    Text.count needle (Text.join "\n" ps) = (ps.map (Text.count needle)).sum := by
  induction ps with
  | nil => rfl
  | cons p ps ih =>
    by_cases hps : ps = []
    · rw [hps]
      simp [Text.join]
    · rw [join_cons _ _ hps, List.map_cons, List.sum_cons, ← ih]
      exact count_append_sep hneedle hfeed p _

lemma count_dropReturn (hneedle : needle ≠ []) (hreturn : '\r' ∉ needle) (t : Text) :
    Text.count needle (Text.dropReturn t) = Text.count needle t :=
  apply_dropReturn (Text.count needle) (fun t => count_append_sep hneedle hreturn t []) t

/-- What does not hold the characters that end lines occurs on the lines of a text alone. -/
theorem count_eq_sum_lines (hneedle : needle ≠ []) (hfeed : '\n' ∉ needle) (hreturn : '\r' ∉ needle)
    (t : Text) : Text.count needle t = ((Text.lines t).map (Text.count needle)).sum := by
  obtain ⟨start, last, hpieces⟩ :=
    List.eq_nil_or_concat (pieces t) |>.resolve_left (pieces_ne_nil t)
  rw [List.concat_eq_append] at hpieces
  have hlines : Text.lines t =
      start.map Text.dropReturn ++ if last = [] then [] else [last] := by
    rw [Text.lines, ← pieces, hpieces, List.dropLast_concat, List.getLast?_concat]
    split_ifs with hlast <;> simp [hlast]
  have hstart : (start.map Text.dropReturn).map (Text.count needle) =
      start.map (Text.count needle) := by
    rw [List.map_map]
    exact List.map_congr_left fun line _ => count_dropReturn hneedle hreturn line
  conv_lhs => rw [← join_pieces t, hpieces, count_join hneedle hfeed]
  rw [hlines, List.map_append, List.map_append, List.sum_append, List.sum_append, hstart]
  split_ifs with hlast
  · rw [hlast]
    rfl
  · rfl

end Counts

/-! ## Tables with one case section -/

/-- The test cases of a source: its lines are filtered and its block is assembled. -/
def casesOf (a : Assembler) (source : Text) : Except GrammarError ParsedCases := do
  let block ← a.dialect.filter source
  (a.assemble block).value

section Tables

variable {source alone : Text} {above inside below : List Text} {marker header : Text}

lemma count_sectionMarker (source : Text) : Text.count sectionMarker source =
    ((Text.lines source).map (Text.count sectionMarker)).sum :=
  count_eq_sum_lines (by decide) (by decide) (by decide) source

lemma count_marker_pos {line : Text} (h : Text.trim line = sectionMarker) :
    0 < Text.count sectionMarker line := by
  obtain ⟨l, r, -, -, hline⟩ := exists_trim line
  rw [h] at hline
  exact (count_pos_iff (by decide)).mpr ⟨l, r, hline.symm⟩

/-- Where the marker of a table stands once, no line above it is a marker line. -/
lemma isMarker_above (hlines : Text.lines source = above ++ marker :: below)
    (hmarker : Text.trim marker = sectionMarker) (honce : Text.count sectionMarker source ≤ 1) :
    ∀ line ∈ above, isMarker line = false := by
  intro line hline
  refine decide_eq_false fun hother => ?_
  obtain ⟨first, more, rfl⟩ := List.append_of_mem hline
  have hcount := count_sectionMarker source
  rw [hlines] at hcount
  simp only [List.map_append, List.map_cons, List.sum_append, List.sum_cons] at hcount
  have hpos := count_marker_pos hmarker
  have hpos' := count_marker_pos hother
  omega

/-- A table that is not refused is filtered to the lines of its case section. -/
lemma filter_keywordTable (h : Text.count sectionMarker source ≤ 1) :
    Dialect.keywordTable.filter source = .ok (Text.join "\n"
      (Dialect.joinContinued Dialect.dropContinuationMark
        (Dialect.caseSection (Text.lines source)))) :=
  if_neg (Nat.not_lt.mpr h)

/-- No other source is refused. -/
lemma filter_eq_error_iff {d : Dialect} {e : GrammarError} : d.filter source = .error e ↔
    d = .keywordTable ∧ HoldsTwice sectionMarker source ∧ e = .multipleSectionMarkers := by
  rw [← one_lt_count_iff (by decide)]
  cases d with
  | annotatedFunction => simp [Dialect.filter]
  | keywordTable =>
    by_cases hcount : 1 < Text.count sectionMarker source
    · have hfilter : Dialect.keywordTable.filter source = .error .multipleSectionMarkers :=
        if_pos hcount
      simp [hfilter, hcount, eq_comm]
    · simp [filter_keywordTable (Nat.le_of_not_lt hcount), hcount]
  | featureScenario => simp [Dialect.filter]

lemma caseSection_eq_nil {ls : List Text} (h : ∀ line ∈ ls, Text.trim line ≠ sectionMarker) :
    Dialect.caseSection ls = [] := by
  have hnone : (ls.dropWhile fun line => !isMarker line) = [] := by
    rw [List.dropWhile_eq_nil_iff]
    intro line hline
    have hnot : isMarker line = false := decide_eq_false (h line hline)
    rw [hnot]
    rfl
  rw [caseSection_eq, hnone]
  rfl

/-- A keyword table is refused exactly if the text of the section marker stands in it twice. Else it
has an empty block where no line is the marker; and where there is such a line, the lines above it
and those from the next section on do not count, even if the last line of the section goes on. -/
theorem filter_section (source : Text) :
    (Dialect.keywordTable.filter source = .error .multipleSectionMarkers ↔
        HoldsTwice sectionMarker source) ∧
      (¬ HoldsTwice sectionMarker source →
        (∀ line ∈ Text.lines source, Text.trim line ≠ sectionMarker) →
        Dialect.keywordTable.filter source = .ok []) ∧
      ∀ (above inside below : List Text) (marker header alone : Text),
        Text.lines source = above ++ marker :: (inside ++ header :: below) →
        Text.lines alone = marker :: inside →
        ¬ HoldsTwice sectionMarker source → Text.trim marker = sectionMarker →
        (∀ line ∈ inside, ¬ "***" <+: line) → "***" <+: header →
        (∃ block, Dialect.keywordTable.filter source = .ok block ∧
          Dialect.keywordTable.filter alone = .ok block) ∧
        ∀ a : Assembler, a.dialect = .keywordTable → casesOf a source = casesOf a alone := by
  refine ⟨by simp [filter_eq_error_iff], fun honce hplain => ?_, ?_⟩
  · rw [← one_lt_count_iff (by decide), Nat.not_lt] at honce
    rw [filter_keywordTable honce, caseSection_eq_nil hplain]
    rfl
  · intro above inside below marker header alone hlines halone honce hmarker hinside hheader
    rw [← one_lt_count_iff (by decide), Nat.not_lt] at honce
    have hfewer : Text.count sectionMarker alone ≤ 1 := by
      rw [count_sectionMarker, hlines] at honce
      rw [count_sectionMarker, halone]
      simp only [List.map_append, List.map_cons, List.sum_append, List.sum_cons] at honce ⊢
      omega
    have hplain : ∀ line ∈ inside, isSectionLine line = false := fun line hline =>
      Bool.eq_false_iff.mpr (mt startsWith_iff.mp (hinside line hline))
    have hsection : Dialect.caseSection (Text.lines source) = inside := by
      rw [hlines]
      refine caseSection_append (isMarker_above hlines hmarker honce) (decide_eq_true hmarker)
        hplain fun line hline => ?_
      cases hline
      exact startsWith_iff.mpr hheader
    have hsection' : Dialect.caseSection (Text.lines alone) = inside := by
      rw [halone]
      exact caseSection_cons (decide_eq_true hmarker) hplain
    have hsource := filter_keywordTable honce
    rw [hsection] at hsource
    have halone := filter_keywordTable hfewer
    rw [hsection'] at halone
    refine ⟨⟨_, hsource, halone⟩, fun a ha => ?_⟩
    rw [casesOf, casesOf, ha, hsource, halone]

end Tables

/-! ## A table with three sections -/

def shopAbove : List Text := ["*** Settings ***", "Library  Shop \\"]

def shopMarker : Text := "  *** Test Cases ***"

def shopInside : List Text := ["<NEW>: Pay", "    Log  paid \\"]

def shopHeader : Text := "*** Keywords ***"

def shopBelow : List Text := ["Helper"]

/-- The last line of the section goes on, and the line above the marker does as well. -/
def shopTable : Text :=
  "*** Settings ***\r\nLibrary  Shop \\\n  *** Test Cases ***\n<NEW>: Pay\n    Log  paid \\\n" ++
    "*** Keywords ***\nHelper\n"

def shopSection : Text :=
  "  *** Test Cases ***\n<NEW>: Pay\n    Log  paid \\\n"

/-- The text of the marker stands in a comment alone. -/
def commentedTable : Text :=
  "*** Settings ***\n# *** Test Cases ***\n"

theorem filter_section_shop :
    (¬ HoldsTwice sectionMarker commentedTable ∧
      (∀ line ∈ Text.lines commentedTable, Text.trim line ≠ sectionMarker) ∧
      Dialect.keywordTable.filter commentedTable = .ok []) ∧
    Text.lines shopTable =
        shopAbove ++ shopMarker :: (shopInside ++ shopHeader :: shopBelow) ∧
      Text.lines shopSection = shopMarker :: shopInside ∧
      ¬ HoldsTwice sectionMarker shopTable ∧ Text.trim shopMarker = sectionMarker ∧
      (∀ line ∈ shopInside, ¬ "***" <+: line) ∧ "***" <+: shopHeader ∧
      (∃ block, Dialect.keywordTable.filter shopTable = .ok block ∧
        Dialect.keywordTable.filter shopSection = .ok block) ∧
      casesOf (orderAssembler .both) shopTable = casesOf (orderAssembler .both) shopSection := by
  have honce {t : Text} (h : Text.count sectionMarker t ≤ 1) : ¬ HoldsTwice sectionMarker t := by
    rwa [← one_lt_count_iff (by decide), Nat.not_lt]
  have hcommented : ¬ HoldsTwice sectionMarker commentedTable := honce (by decide +kernel)
  have hplain : ∀ line ∈ Text.lines commentedTable, Text.trim line ≠ sectionMarker := by
    decide +kernel
  have hlines : Text.lines shopTable =
      shopAbove ++ shopMarker :: (shopInside ++ shopHeader :: shopBelow) := by
    decide +kernel
  have halone : Text.lines shopSection = shopMarker :: shopInside := by decide +kernel
  have hshop : ¬ HoldsTwice sectionMarker shopTable := honce (by decide +kernel)
  have hmarker : Text.trim shopMarker = sectionMarker := by decide +kernel
  have hinside : ∀ line ∈ shopInside, ¬ "***" <+: line := by decide +kernel
  have hheader : "***" <+: shopHeader := by decide
  obtain ⟨hblock, hcases⟩ := (filter_section shopTable).2.2 shopAbove shopInside shopBelow
    shopMarker shopHeader shopSection hlines halone hshop hmarker hinside hheader
  exact ⟨⟨hcommented, hplain, (filter_section commentedTable).2.1 hcommented hplain⟩, hlines, halone,
    hshop, hmarker, hinside, hheader, hblock, hcases (orderAssembler .both) rfl⟩

end TestCatalog.Proofs
