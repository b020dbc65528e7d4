import TestCatalog.Proofs.FileLogs

/-!
# The findings that a report lists

The report of a collector lists, file by file, the errors and then the warnings that are kept of the
file, each with its code, its message and its place. The events of a file are sorted for it, and the
sort is stable. Files without findings are left out, and so is what is no finding. The closing
counts come from the summary; they are those of the list.
-/

namespace TestCatalog.Proofs

/-! ## Shown findings -/

/-- Where a finding is: on a line of the file if one is known, or else in a case. -/
def shownPlace (path : Path) (e : Event) : Text :=
  match e.line with
  | some line => " --> " ++ path.spelling ++ ":" ++ Text.ofNat line
  | none =>
    (e.context.get? "case").elim [] fun case => " --> " ++ path.spelling ++ " (" ++ case ++ ")"

/-- The kind of a finding, its code, its message and its place. -/
def findingLine (kind : Text) (path : Path) (e : Event) : Text :=
  kind ++ "[" ++ e.code.id ++ "]: " ++ e.message ++ shownPlace path e ++ "\n"

def noteLine (key value : Text) : Text :=
  "  = " ++ key ++ ": " ++ value ++ "\n"

/-- The details of a finding in the order of their keys, without those that repeat the file. -/
def shownDetails (e : Event) : Text :=
  (e.context.entries.filter fun (key, _) => key ≠ "file" ∧ key ≠ "file_id").flatMap
    fun (key, value) => noteLine key value

/-- An error with what the registry says of its code. -/
def shownError (path : Path) (e : Event) : Text :=
  findingLine "error" path e ++
    noteLine "severity" (e.code.severity.label ++ ", category: " ++ e.code.category) ++
    shownDetails e ++ e.code.classification?.elim [] fun entry => noteLine "help" entry.action

def shownWarning (path : Path) (e : Event) : Text :=
  findingLine "warning" path e ++ shownDetails e

section Shown

variable {path : Path} {e : Event}

lemma location_eq (path : Path) (e : Event) : Collector.location path e = shownPlace path e := by
  unfold Collector.location shownPlace
  cases e.line with
  | some line => rfl
  | none => cases e.context.get? "case" <;> rfl

lemma renderFinding_of_error (h : e.isError = true) :
    Collector.renderFinding path e = shownError path e := by
  have hclass :
      "  = severity: " ++ e.code.severity.label ++ ", category: " ++ e.code.category ++ "\n" =
        noteLine "severity" (e.code.severity.label ++ ", category: " ++ e.code.category) := by
    unfold noteLine
    simp only [List.append_assoc]
    rfl
  unfold Collector.renderFinding shownError
  simp only [h, if_true, location_eq]
  rw [hclass]
  cases e.code.classification? <;> rfl

lemma renderFinding_of_warning (h : e.isWarning = true) :
    Collector.renderFinding path e = shownWarning path e := by
  have hlevel : e.level = .warning := of_decide_eq_true h
  have herror : e.isError = false := by
    rw [Event.isError, hlevel]
    rfl
  unfold Collector.renderFinding shownWarning
  simp only [herror, Bool.false_eq_true, if_false, location_eq]
  cases e.code.classification? <;> simp only [List.append_nil] <;> rfl

end Shown

/-! ## Listed files -/

/-- What the report lists of a file. -/
structure ListedFile where
  path : Path
  errors : List Event
  warnings : List Event

namespace ListedFile

/-- The errors and the warnings that are kept of a path, in the order of their records. -/
def ofRecords (records : List (Path × Event)) (path : Path) : ListedFile where
  path
  errors := (kept (eventsAbout records path)).filter Event.isError
  warnings := (kept (eventsAbout records path)).filter Event.isWarning

def hasFindings (file : ListedFile) : Bool :=
  file.errors ≠ [] ∨ file.warnings ≠ []

/-- A header, the errors, the warnings and a blank line. -/
def render (file : ListedFile) : Text :=
  "Checking " ++ file.path.spelling ++ "...\n" ++
    file.errors.flatMap (shownError file.path) ++
    file.warnings.flatMap (shownWarning file.path) ++ "\n"

end ListedFile

/-- How many errors are listed in how many files, and how many warnings, each if there are some. -/
def closingCounts (listed : List ListedFile) : Text :=
  let errors := (listed.map fun file => file.errors.length).sum
  let warnings := (listed.map fun file => file.warnings.length).sum
  let failed := listed.countP fun file => file.errors ≠ []
  (if 0 < errors then
      "\n" ++ Text.ofNat errors ++ " error(s) in " ++ Text.ofNat failed ++ " file(s)\n"
    else []) ++
    if 0 < warnings then Text.ofNat warnings ++ " warning(s)\n" else []

/-! ## What is left out -/

section LeftOut

variable {α : Type} {shown : α → Bool}

lemma flatMap_of_shown {render listing : α → Text}
    (h : ∀ a, listing a = if shown a then render a else []) (l : List α) :
    l.flatMap listing = (l.filter shown).flatMap render := by
  induction l with
  | nil => rfl
  | cons a l ih =>
    rw [List.flatMap_cons, ih, h, List.filter_cons]
    cases shown a <;> simp

lemma sum_of_shown {count : α → ℕ} (h : ∀ a, shown a = false → count a = 0) (l : List α) :
    (l.map count).sum = ((l.filter shown).map count).sum := by
  induction l with
  | nil => rfl
  | cons a l ih =>
    rw [List.map_cons, List.sum_cons, ih, List.filter_cons]
    cases ha : shown a with
    | true => rfl
    | false => rw [h a ha, Nat.zero_add]; rfl

end LeftOut

/-! ## Sorted findings -/

section Sorted

variable {α : Type} {first : α → Bool} {l : List α}

lemma filter_append_filter_not (h : l.Pairwise fun a b => (!first a) ≤ (!first b)) :
    l.filter first ++ l.filter (!first ·) = l := by
  induction l with
  | nil => rfl
  | cons a l ih =>
    obtain ⟨hle, hl⟩ := List.pairwise_cons.mp h
    by_cases ha : first a = true
    · rw [List.filter_cons_of_pos ha, List.filter_cons_of_neg (by simp [ha]), List.cons_append,
        ih hl]
    · -- nothing comes first behind an element that does not
      have hrest : ∀ b ∈ l, ¬ first b = true := by
        intro b hb hfirst
        have hab := hle b hb
        rw [hfirst, Bool.eq_false_iff.mpr ha] at hab
        exact absurd hab (by decide)
      have hnone : (a :: l).filter first = [] :=
        List.filter_eq_nil_iff.mpr (List.forall_mem_cons.mpr ⟨ha, hrest⟩)
      have hall : (a :: l).filter (!first ·) = a :: l := by
        refine List.filter_eq_self.mpr fun b hb => ?_
        rcases List.mem_cons.mp hb with rfl | hb
        · simpa using ha
        · simpa using hrest b hb
      rw [hnone, hall, List.nil_append]

/-- Sorting by whether an element comes first changes nothing else in the order. -/
theorem mergeSort_first (first : α → Bool) (l : List α) :
    l.mergeSort (fun a b => (!first a) ≤ (!first b)) = l.filter first ++ l.filter (!first ·) := by
  have htrans (a b c : α) (hab : decide ((!first a) ≤ (!first b)) = true)
      (hbc : decide ((!first b) ≤ (!first c)) = true) :
      decide ((!first a) ≤ (!first c)) = true :=
    decide_eq_true ((of_decide_eq_true hab).trans (of_decide_eq_true hbc))
  have htotal (a b : α) :
      (decide ((!first a) ≤ (!first b)) || decide ((!first b) ≤ (!first a))) = true := by
    simpa using le_total (!first a) (!first b)
  have hsorted := List.pairwise_mergeSort htrans htotal l
  have hperm := l.mergeSort_perm fun a b => (!first a) ≤ (!first b)
  -- elements of one kind are in order already, so that a stable sort leaves them as they are
  have hkind (kind : α → Bool) (hkind : ∀ a b, kind a = true → kind b = true → first a = first b) :
      (l.mergeSort fun a b => (!first a) ≤ (!first b)).filter kind = l.filter kind := by
    have hordered : (l.filter kind).Pairwise fun a b =>
        decide ((!first a) ≤ (!first b)) = true := by
      refine List.pairwise_of_forall_mem_list fun a ha b hb => decide_eq_true ?_
      rw [hkind a b (List.mem_filter.mp ha).2 (List.mem_filter.mp hb).2]
    have hsub := (List.sublist_mergeSort htrans htotal hordered List.filter_sublist).filter kind
    simp only [List.filter_filter, Bool.and_self] at hsub
    exact (hsub.eq_of_length (hperm.filter kind).length_eq.symm).symm
  rw [← filter_append_filter_not (hsorted.imp of_decide_eq_true),
    hkind first fun a b ha hb => ha.trans hb.symm,
    hkind (!first ·) fun a b ha hb => by simpa using ha.trans hb.symm]

end Sorted

/-- The findings are sorted into the errors and then the warnings. -/
lemma errorsFirst_filter (events : List Event) :
    Collector.errorsFirst (events.filter Event.isFinding) =
      events.filter Event.isError ++ events.filter Event.isWarning := by
  rw [Collector.errorsFirst, mergeSort_first, List.filter_filter, List.filter_filter]
  refine congrArg₂ (· ++ ·) (List.filter_congr fun e _ => ?_) (List.filter_congr fun e _ => ?_)
  · cases h : e.isError <;> simp [Event.isFinding, h]
  · cases h : e.level <;> simp [Event.isFinding, Event.isError, Event.isWarning, h]

/-! ## The report -/

lemma filter_isFinding_eq_nil_iff {events : List Event} : events.filter Event.isFinding = [] ↔
    events.filter Event.isError = [] ∧ events.filter Event.isWarning = [] := by
  simp only [List.filter_eq_nil_iff, Event.isFinding, Bool.or_eq_true, not_or]
  exact forall₂_and

/-- A log is listed with its errors and then its warnings, if it has any. -/
lemma renderLog_eq (log : FileLog) :
    let file : ListedFile := ⟨log.path, log.errors, log.warnings⟩
    Collector.renderLog log = if file.hasFindings then file.render else [] := by
  intro file
  unfold Collector.renderLog
  by_cases hnone : log.events.filter Event.isFinding = []
  · obtain ⟨herrors, hwarnings⟩ := filter_isFinding_eq_nil_iff.mp hnone
    have hfile : file.hasFindings = false :=
      decide_eq_false (not_or.mpr ⟨not_not.mpr herrors, not_not.mpr hwarnings⟩)
    rw [hnone, hfile]
    rfl
  · have hfile : file.hasFindings = true :=
      decide_eq_true (not_and_or.mp (mt filter_isFinding_eq_nil_iff.mpr hnone))
    have herrors : log.errors.flatMap (Collector.renderFinding log.path) =
        file.errors.flatMap (shownError file.path) :=
      List.flatMap_congr fun e he => renderFinding_of_error (List.mem_filter.mp he).2
    have hwarnings : log.warnings.flatMap (Collector.renderFinding log.path) =
        file.warnings.flatMap (shownWarning file.path) :=
      List.flatMap_congr fun e he => renderFinding_of_warning (List.mem_filter.mp he).2
    have hsorted : Collector.errorsFirst (log.events.filter Event.isFinding) =
        log.errors ++ log.warnings := errorsFirst_filter log.events
    dsimp only
    rw [if_neg (mt List.isEmpty_iff.mp hnone), hfile, if_pos rfl, hsorted, List.flatMap_append,
      herrors, hwarnings]
    unfold ListedFile.render
    simp only [List.append_assoc]
    rfl

/-- The summary counts what is listed: a file without findings adds nothing to it. -/
lemma renderCounts_eq {c : Collector} {files : List Path} (hcounts : CountsOver c files)
    (listing : Path → ListedFile) (herrors : ∀ path, (listing path).errors = c.errors path)
    (hwarnings : ∀ path, (listing path).warnings = c.warnings path) :
    Collector.renderCounts c.summary =
      closingCounts ((files.map listing).filter ListedFile.hasFindings) := by
  have hlisted (count : ListedFile → ℕ)
      (hcount : ∀ file, file.errors = [] ∧ file.warnings = [] → count file = 0) :
      (((files.map listing).filter ListedFile.hasFindings).map count).sum =
        (files.map fun path => count (listing path)).sum := by
    have hnone (file : ListedFile) (hfile : file.hasFindings = false) : count file = 0 :=
      hcount file (by simpa [ListedFile.hasFindings] using hfile)
    rw [← sum_of_shown hnone, List.map_map]
    rfl
  have hfailed : ((files.map listing).filter ListedFile.hasFindings).countP
      (fun file => file.errors ≠ []) = c.summary.failed := by
    rw [hcounts.failed, hcounts.failedFiles, List.countP_filter, List.countP_map,
      ← List.countP_eq_length_filter]
    refine List.countP_congr fun path _ => ?_
    simp only [Function.comp_apply, ListedFile.hasFindings, herrors, Bool.and_eq_true,
      decide_eq_true_eq]
    exact and_iff_left_of_imp .inl
  unfold Collector.renderCounts closingCounts
  simp only [hfailed, hlisted _ fun file h => List.length_eq_zero_iff.mpr h.1,
    hlisted _ fun file h => List.length_eq_zero_iff.mpr h.2, herrors, hwarnings, ← hcounts.errors,
    ← hcounts.warnings, Summary.hasErrors, Summary.hasWarnings, decide_eq_true_eq]

/-- Whatever is done to a new collector: its report lists the files with findings in their order,
each finding that is kept once, and closes with the counts of what it lists. -/
theorem render_lists_findings (calls : List CollectorCall) :
    ∃ files, FilesOf (recorded calls) files ∧
      let listed := (files.map (ListedFile.ofRecords (recorded calls))).filter
        ListedFile.hasFindings
      (collected calls).render = listed.flatMap ListedFile.render ++ closingCounts listed ∧
        ∀ file ∈ listed, (∀ e ∈ file.errors, e.level = .error) ∧
          ∀ e ∈ file.warnings, e.level = .warning := by
  have hkeeps := keeps_collected calls
  obtain ⟨files, hfiles, hlogs⟩ := hkeeps.exists_files
  have hrender (path : Path) :
      Collector.renderLog { path, events := kept (eventsAbout (recorded calls) path) } =
        if (ListedFile.ofRecords (recorded calls) path).hasFindings then
          (ListedFile.ofRecords (recorded calls) path).render
        else [] := renderLog_eq _
  have hlisted : (collected calls).logs.flatMap Collector.renderLog =
      ((files.map (ListedFile.ofRecords (recorded calls))).filter ListedFile.hasFindings).flatMap
        ListedFile.render := by
    rw [← flatMap_of_shown (fun _ => rfl), hlogs, List.flatMap_map, List.flatMap_map]
    simp only [hkeeps.events_eq, hrender]
  have hcounts := renderCounts_eq (countsOver_of_logs hlogs)
    (ListedFile.ofRecords (recorded calls))
    (fun path => by rw [Collector.errors, hkeeps.events_eq]; rfl)
    (fun path => by rw [Collector.warnings, hkeeps.events_eq]; rfl)
  refine ⟨files, hfiles, ?_, fun file hfile => ?_⟩
  · rw [Collector.render, hlisted, hcounts]
  · obtain ⟨path, -, rfl⟩ := List.mem_map.mp (List.mem_filter.mp hfile).1
    exact ⟨fun e he => of_decide_eq_true (List.mem_filter.mp he).2,
      fun e he => of_decide_eq_true (List.mem_filter.mp he).2⟩

end TestCatalog.Proofs
