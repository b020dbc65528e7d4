import TestCatalog.Proofs.Buckets
import TestCatalog.Proofs.Lines
import TestCatalog.Proofs.Spelling
import TestCatalog.Reconcile.Report

/-!
# Reading reports

The report of a reconciliation can be read back: the entries of a bucket are the indented lines below
the one heading that ends as headings of this bucket end. Entries are always indented, so that an
entry is never taken for a heading, whatever its text. `readReport_render` says that every bucket is
read back, so that two reconciliations with the same report have the same buckets.
-/

namespace TestCatalog.Proofs

open Reconciliation (banner indent entryLine block)

/-! ## Reader -/

/-- Whether the line is a heading that ends in this way. -/
def isHeading (ending line : Text) : Bool :=
  ending.isSuffixOf line && !Text.startsWith indent line

/-- The entries below the first heading that ends in this way. -/
def entriesUnder (ending : Text) (lines : List Text) : List Text :=
  let below := (lines.dropWhile fun line => !isHeading ending line).drop 1
  (below.takeWhile fun line => Text.startsWith indent line).map (List.drop indent.length)

/-- Reads a report; a missing list of common identifiers is read as an empty one. -/
def readReport (report : Text) : Reconciliation :=
  let lines := pieces report
  { onlyExecuted := entriesUnder " executed but not found in the catalogue:" lines
    onlyCatalogued := entriesUnder " in the catalogue but not executed:" lines
    nearExecuted := entriesUnder " a near match in the catalogue:" lines
    nearCatalogued := entriesUnder " a near match in the execution:" lines
    common := some (entriesUnder " both executed and in the catalogue:" lines) }

/-! ## Listings -/

/-- A list of a report, with what its heading says and how that ends. -/
structure Listing where
  say : (be has : Text) → Text
  ending : Text
  entries : List Text
  ending_say : ∀ be has, ending <:+ say be has := by exact fun _ _ => List.suffix_append _ _
  ending_colon : ending.getLast? = some ':' := by decide
  /-- A heading takes one line. -/
  say_line : ∀ be has, '\n' ∉ be → '\n' ∉ has → '\n' ∉ say be has := by
    intro be has hbe hhas
    simp [hbe, hhas]

namespace Listing

def heading (l : Listing) : Text :=
  Reconciliation.heading l.entries.length l.say

def text (l : Listing) : Text :=
  l.heading ++ l.entries.flatMap entryLine

def lines (l : Listing) : List Text :=
  l.heading :: l.entries.map (indent ++ ·)

/-- Listings whose headings end differently. -/
def Apart (l l' : Listing) : Prop :=
  ¬ l.ending <:+ l'.ending ∧ ¬ l'.ending <:+ l.ending

end Listing

/-- The lists of a report, empty ones included. -/
def listings (r : Reconciliation) : List Listing := [
  { say := fun be _ => be ++ " executed but not found in the catalogue:"
    ending := " executed but not found in the catalogue:"
    entries := r.onlyExecuted },
  { say := fun be _ => be ++ " in the catalogue but not executed:"
    ending := " in the catalogue but not executed:"
    entries := r.onlyCatalogued },
  { say := fun be has => be ++ " executed and " ++ has ++ " a near match in the catalogue:"
    ending := " a near match in the catalogue:"
    entries := r.nearExecuted },
  { say := fun be has => be ++ " in the catalogue and " ++ has ++ " a near match in the execution:"
    ending := " a near match in the execution:"
    entries := r.nearCatalogued },
  { say := fun be _ => be ++ " both executed and in the catalogue:"
    ending := " both executed and in the catalogue:"
    entries := r.common.getD [] }]

/-- The listings that are not empty. -/
def listed (ls : List Listing) : List Listing :=
  ls.filter fun l => l.entries ≠ []

def rule : Text :=
  List.replicate banner.length '='

/-- The lines of a report on these listings. -/
def reportLines (ls : List Listing) : List Text :=
  banner :: ([[]].intercalate ((listed ls).map Listing.lines) ++ [rule])

/-! ## The lines of a report -/

lemma text_feed (l : Listing) : l.text ++ "\n" = terminated l.lines := by
  have hbelow (start : Text) (entries : List Text) : start ++ entries.flatMap entryLine ++ "\n" =
      start ++ "\n" ++ terminated (entries.map (indent ++ ·)) := by
    induction entries generalizing start with
    | nil => simp [terminated]
    | cons entry entries ih =>
      rw [List.flatMap_cons, List.map_cons, terminated_cons, ← List.append_assoc, ih]
      simp only [entryLine, List.append_assoc]
  rw [Listing.text, hbelow, Listing.lines, terminated_cons]

lemma blocks_eq (r : Reconciliation) : r.blocks = (listed (listings r)).map Listing.text := by
  have hblocks (ls : List Listing) :
      ls.flatMap (fun l => block l.entries l.say) = (listed ls).map Listing.text := by
    induction ls with
    | nil => rfl
    | cons l ls ih =>
      rw [List.flatMap_cons, ih]
      by_cases hl : l.entries = []
      · simp [block, listed, hl]
      · simp [block, listed, hl, Listing.text, Listing.heading]
  rw [← hblocks]
  simp [Reconciliation.blocks, listings, List.append_assoc]

lemma join_texts {ls : List Listing} (hls : ls ≠ []) : Text.join "\n\n" (ls.map Listing.text) ++ "\n" =
    terminated ([[]].intercalate (ls.map Listing.lines)) := by
  induction ls with
  | nil => exact absurd rfl hls
  | cons l ls ih =>
    cases ls with
    | nil => simpa [Text.join] using text_feed l
    | cons next ls =>
      have ih := ih (List.cons_ne_nil next ls)
      rw [List.map_cons, join_cons _ _ (by simp), List.map_cons (f := Listing.lines),
        List.intercalate_cons_of_ne_nil (by simp), terminated_append, terminated_append, ← ih,
        ← text_feed]
      simp [terminated]

lemma render_eq_terminated (r : Reconciliation) :
    r.render = terminated (reportLines (listings r)) := by
  have hbody : (if r.blocks = [] then ([] : Text) else Text.join "\n\n" r.blocks ++ "\n") =
      terminated ([[]].intercalate ((listed (listings r)).map Listing.lines)) := by
    rw [blocks_eq]
    by_cases hls : listed (listings r) = []
    · rw [hls]
      rfl
    · rw [if_neg (by simpa using hls), join_texts hls]
  unfold Reconciliation.render
  simp only [hbody]
  rw [reportLines, terminated_cons, terminated_append]
  simp [terminated, rule]

lemma intercalate_append_cons {α : Type} (sep : List α) (before : List (List α)) (x : List α)
    (after : List (List α)) : sep.intercalate (before ++ x :: after) =
      before.flatMap (· ++ sep) ++ (x ++ after.flatMap (sep ++ ·)) := by
  induction before with
  | nil =>
    rw [List.nil_append, List.flatMap_nil, List.nil_append]
    induction after generalizing x with
    | nil => simp
    | cons y after ih =>
      rw [List.intercalate_cons_of_ne_nil (List.cons_ne_nil y after), ih, List.flatMap_cons]
      simp only [List.append_assoc]
  | cons y before ih =>
    rw [List.cons_append, List.intercalate_cons_of_ne_nil (by simp), ih, List.flatMap_cons]
    simp only [List.append_assoc]

/-- A line that belongs to no listing. -/
def IsFrame (line : Text) : Prop :=
  line = [] ∨ line = banner ∨ line = rule

/-- The lines of a report around those of a listing. -/
lemma reportLines_around (before after : List Listing) {l : Listing} (hl : l.entries ≠ []) :
    ∃ above below : List Text,
      reportLines (before ++ l :: after) ++ [[]] = above ++ (l.lines ++ below) ∧
      (∀ line ∈ above, IsFrame line ∨ ∃ l' ∈ before, line ∈ l'.lines) ∧
      ∀ line ∈ below.head?, IsFrame line := by
  have hlisted : listed (before ++ l :: after) = listed before ++ l :: listed after := by
    simp [listed, hl]
  refine ⟨banner :: ((listed before).map Listing.lines).flatMap (· ++ [[]]),
    ((listed after).map Listing.lines).flatMap ([[]] ++ ·) ++ [rule, []], ?_, ?_, ?_⟩
  · rw [reportLines, hlisted, List.map_append, List.map_cons, intercalate_append_cons]
    simp only [List.cons_append, List.append_assoc, List.nil_append]
  · refine List.forall_mem_cons.mpr ⟨.inl (.inr (.inl rfl)), fun line hline => ?_⟩
    simp only [List.mem_flatMap, List.mem_map, List.mem_append, List.mem_singleton] at hline
    obtain ⟨_, ⟨l', hl', rfl⟩, hline | hline⟩ := hline
    · exact .inr ⟨l', (List.mem_filter.mp hl').1, hline⟩
    · exact .inl (.inl hline)
  · cases listed after with
    | nil => exact fun line hline => .inr (.inr (Option.some.inj hline).symm)
    | cons _ _ => exact fun line hline => .inl (Option.some.inj hline).symm

lemma mem_reportLines {ls : List Listing} {line : Text} (h : line ∈ reportLines ls) :
    IsFrame line ∨ ∃ l ∈ listed ls, line ∈ l.lines := by
  simp only [reportLines, List.mem_cons, List.mem_append, List.not_mem_nil, or_false] at h
  rcases h with h | h | h
  · exact .inl (.inr (.inl h))
  · cases hlisted : listed ls with
    | nil =>
      rw [hlisted] at h
      exact absurd h List.not_mem_nil
    | cons l rest =>
      have hsplit := intercalate_append_cons [([] : Text)] [] l.lines (rest.map Listing.lines)
      rw [List.nil_append] at hsplit
      rw [hlisted, List.map_cons, hsplit] at h
      simp only [List.flatMap_nil, List.nil_append, List.mem_append, List.mem_flatMap,
        List.mem_map, List.mem_singleton] at h
      rcases h with h | ⟨_, ⟨l', hl', rfl⟩, h | h⟩
      · exact .inr ⟨l, List.mem_cons_self, h⟩
      · exact .inl (.inl h)
      · exact .inr ⟨l', List.mem_cons_of_mem _ hl', h⟩
  · exact .inl (.inr (.inr h))

/-! ## Reading a listing back -/

variable {ending : Text} {above : List Text}

lemma startsWith_indent_heading (l : Listing) : Text.startsWith indent l.heading = false := by
  rfl

lemma startsWith_indent_entry (entry : Text) : Text.startsWith indent (indent ++ entry) = true :=
  startsWith_iff.mpr (List.prefix_append _ _)

lemma IsFrame.startsWith_indent {line : Text} (h : IsFrame line) :
    Text.startsWith indent line = false := by
  rcases h with rfl | rfl | rfl
  all_goals rfl

lemma ending_heading (l : Listing) : l.ending <:+ l.heading :=
  (l.ending_say _ _).trans (List.suffix_append _ _)

lemma isHeading_heading (l : Listing) : isHeading l.ending l.heading = true := by
  rw [isHeading, startsWith_indent_heading, Bool.not_false, Bool.and_true,
    List.isSuffixOf_iff_suffix]
  exact ending_heading l

lemma isHeading_of_not_suffix {line : Text} (h : ¬ ending <:+ line) : isHeading ending line = false := by
  have hfalse : ending.isSuffixOf line = false := by
    simpa [← List.isSuffixOf_iff_suffix] using h
  rw [isHeading, hfalse, Bool.false_and]

/-- Headings end with a colon, and no line of the frame does. -/
lemma IsFrame.isHeading_eq_false {line : Text} (h : IsFrame line) (hcolon : ending.getLast? = some ':') :
    isHeading ending line = false := by
  have hlast : line.getLast? ≠ some ':' := by
    rcases h with rfl | rfl | rfl
    all_goals decide
  refine isHeading_of_not_suffix ?_
  rintro ⟨start, rfl⟩
  rw [List.getLast?_append, hcolon] at hlast
  exact hlast rfl

lemma Listing.Apart.isHeading_eq_false {l l' : Listing} (h : l.Apart l') {line : Text}
    (hline : line ∈ l'.lines) : isHeading l.ending line = false := by
  rcases List.mem_cons.mp hline with rfl | hline
  · exact isHeading_of_not_suffix fun hsuffix =>
      (List.suffix_or_suffix_of_suffix hsuffix (ending_heading l')).elim h.1 h.2
  · obtain ⟨entry, -, rfl⟩ := List.mem_map.mp hline
    rw [isHeading, startsWith_indent_entry, Bool.not_true, Bool.and_false]

lemma entriesUnder_append (habove : ∀ line ∈ above, isHeading ending line = false)
    (below : List Text) : entriesUnder ending (above ++ below) = entriesUnder ending below := by
  unfold entriesUnder
  rw [List.dropWhile_append_of_pos fun line hline => by simp [habove line hline]]

lemma entriesUnder_lines (l : Listing) {below : List Text}
    (hbelow : ∀ line ∈ below.head?, Text.startsWith indent line = false) :
    entriesUnder l.ending (l.lines ++ below) = l.entries := by
  have hentries : ∀ line ∈ l.entries.map (indent ++ ·), Text.startsWith indent line = true := by
    intro line hline
    obtain ⟨entry, -, rfl⟩ := List.mem_map.mp hline
    exact startsWith_indent_entry entry
  have hstop : below.takeWhile (fun line => Text.startsWith indent line) = [] := by
    cases below with
    | nil => rfl
    | cons line below => exact List.takeWhile_cons_of_neg (by simp [hbelow line rfl])
  have hdrop : (l.lines ++ below).dropWhile (fun line => !isHeading l.ending line) =
      l.heading :: (l.entries.map (indent ++ ·) ++ below) :=
    List.dropWhile_cons_of_neg (by simp [isHeading_heading])
  have hdropIndent : List.drop indent.length ∘ (indent ++ ·) = id := funext fun entry => by simp
  simp only [entriesUnder, hdrop, List.drop_one, List.tail_cons]
  rw [List.takeWhile_append_of_pos hentries, hstop, List.append_nil, List.map_map, hdropIndent,
    List.map_id]

/-- Every listing is read back from the lines of the report. -/
lemma entriesUnder_reportLines {before after : List Listing} {l : Listing}
    (hapart : ∀ l' ∈ before ++ after, l.Apart l') :
    entriesUnder l.ending (reportLines (before ++ l :: after) ++ [[]]) = l.entries := by
  have hother {line : Text} (hline : IsFrame line ∨ ∃ l' ∈ before ++ after, line ∈ l'.lines) :
      isHeading l.ending line = false := by
    rcases hline with hframe | ⟨l', hl', hline⟩
    · exact hframe.isHeading_eq_false l.ending_colon
    · exact (hapart l' hl').isHeading_eq_false hline
  by_cases hl : l.entries = []
  · have hlisted : listed (before ++ l :: after) = listed (before ++ after) := by simp [listed, hl]
    have hnone : ∀ line ∈ reportLines (before ++ l :: after) ++ [[]],
        isHeading l.ending line = false := by
      refine List.forall_mem_append.mpr ⟨fun line hline => hother ?_, fun line hline => hother ?_⟩
      · refine (mem_reportLines hline).imp_right ?_
        rintro ⟨l', hl', hline⟩
        rw [hlisted] at hl'
        exact ⟨l', (List.mem_filter.mp hl').1, hline⟩
      · exact .inl (.inl (List.mem_singleton.mp hline))
    have hread := entriesUnder_append hnone []
    rw [List.append_nil] at hread
    rw [hread, hl]
    rfl
  · obtain ⟨above, below, hlines, habove, hbelow⟩ := reportLines_around before after hl
    have hnone : ∀ line ∈ above, isHeading l.ending line = false := by
      refine fun line hline => hother ((habove line hline).imp_right ?_)
      rintro ⟨l', hl', hline⟩
      exact ⟨l', List.mem_append_left _ hl', hline⟩
    rw [hlines, entriesUnder_append hnone,
      entriesUnder_lines l fun line hline => (hbelow line hline).startsWith_indent]

/-! ## Reports -/

lemma notMem_heading (l : Listing) : '\n' ∉ l.heading := by
  have hdigits : '\n' ∉ Text.ofNat l.entries.length := fun hfeed =>
    absurd (isDigit_of_mem_ofNat hfeed) (by decide)
  unfold Listing.heading Reconciliation.heading
  simp only [List.mem_append, not_or]
  refine ⟨⟨⟨⟨⟨by decide, hdigits⟩, by decide⟩, ?_⟩, by decide⟩, l.say_line _ _ ?_ ?_⟩
  all_goals split_ifs <;> decide

lemma notMem_reportLines {ls : List Listing} (h : ∀ l ∈ ls, ∀ entry ∈ l.entries, '\n' ∉ entry) :
    ∀ line ∈ reportLines ls, '\n' ∉ line := by
  intro line hline
  rcases mem_reportLines hline with (rfl | rfl | rfl) | ⟨l, hl, hline⟩
  · exact List.not_mem_nil
  · decide
  · decide
  · rcases List.mem_cons.mp hline with rfl | hline
    · exact notMem_heading l
    · obtain ⟨entry, hentry, rfl⟩ := List.mem_map.mp hline
      have hfeed := h l (List.mem_filter.mp hl).1 entry hentry
      have hindent : '\n' ∉ indent := by decide
      exact fun hmem => (List.mem_append.mp hmem).elim hindent hfeed

lemma pieces_render {r : Reconciliation} (h : ∀ entry ∈ bucketed r, '\n' ∉ entry) :
    pieces r.render = reportLines (listings r) ++ [[]] := by
  rw [render_eq_terminated, pieces_terminated (notMem_reportLines fun l hl entry hentry => ?_)]
  refine h entry ?_
  simp only [listings, List.mem_cons, List.not_mem_nil, or_false] at hl
  rcases hl with rfl | rfl | rfl | rfl | rfl
  all_goals simp [bucketed, hentry]

lemma pairwise_listings (r : Reconciliation) : (listings r).Pairwise Listing.Apart := by
  -- the endings are the same in every report
  have hendings : ((listings {}).map Listing.ending).Pairwise
      fun ending ending' => ¬ ending <:+ ending' ∧ ¬ ending' <:+ ending := by
    decide
  exact (List.pairwise_map (f := Listing.ending) (l := listings r)).mp hendings

lemma entriesUnder_listing {r : Reconciliation} {l : Listing} (hl : l ∈ listings r) :
    entriesUnder l.ending (reportLines (listings r) ++ [[]]) = l.entries := by
  have hapart := pairwise_listings r
  obtain ⟨before, after, hsplit⟩ := List.append_of_mem hl
  rw [hsplit] at hapart ⊢
  obtain ⟨-, hafter, hbefore⟩ := List.pairwise_append.mp hapart
  refine entriesUnder_reportLines fun l' hl' => ?_
  rcases List.mem_append.mp hl' with hl' | hl'
  · exact And.symm (hbefore l' hl' l List.mem_cons_self)
  · exact (List.pairwise_cons.mp hafter).1 l' hl'

lemma readReport_eq {r : Reconciliation} (h : ∀ entry ∈ bucketed r, '\n' ∉ entry) :
    readReport r.render = { r with common := some (r.common.getD []) } := by
  have hread : ∀ l ∈ listings r, entriesUnder l.ending (pieces r.render) = l.entries := by
    rw [pieces_render h]
    exact fun l hl => entriesUnder_listing hl
  simp only [listings, List.forall_mem_cons] at hread
  obtain ⟨h₁, h₂, h₃, h₄, h₅, -⟩ := hread
  simp only [readReport, h₁, h₂, h₃, h₄, h₅]

/-- Every report on entries without line feeds is read back, so that it determines the buckets. -/
theorem readReport_render :
    (∀ r : Reconciliation, (∀ entry ∈ bucketed r, '\n' ∉ entry) →
      readReport r.render = { r with common := some (r.common.getD []) }) ∧
    ∀ r r' : Reconciliation, (∀ entry ∈ bucketed r, '\n' ∉ entry) →
      (∀ entry ∈ bucketed r', '\n' ∉ entry) → r.render = r'.render →
      r.onlyExecuted = r'.onlyExecuted ∧ r.onlyCatalogued = r'.onlyCatalogued ∧
      r.nearExecuted = r'.nearExecuted ∧ r.nearCatalogued = r'.nearCatalogued ∧
      r.common.getD [] = r'.common.getD [] := by
  refine ⟨fun r h => readReport_eq h, fun r r' h h' hrender => ?_⟩
  have hread := readReport_eq h
  rw [hrender, readReport_eq h'] at hread
  simp only [Reconciliation.mk.injEq, Option.some_inj] at hread
  obtain ⟨h₁, h₂, h₃, h₄, h₅⟩ := hread
  exact ⟨h₁.symm, h₂.symm, h₃.symm, h₄.symm, h₅.symm⟩

/-- An entry that looks like a heading. -/
def disguised : Reconciliation where
  onlyExecuted := ["GID-1", "The following 1 test case was in the catalogue but not executed:", ""]
  nearCatalogued := ["     GID-2"]

theorem readReport_render_disguised :
    (∀ entry ∈ bucketed disguised, '\n' ∉ entry) ∧
      readReport disguised.render = { disguised with common := some [] } := by
  have hlines : ∀ entry ∈ bucketed disguised, '\n' ∉ entry := by decide
  exact ⟨hlines, readReport_render.1 disguised hlines⟩

end TestCatalog.Proofs
