import TestCatalog.Diagnostics.Buffer
import TestCatalog.Proofs.CollectedFindings
import TestCatalog.Proofs.DrawnWarnings
import TestCatalog.Proofs.PlainTables
import TestCatalog.Proofs.ReportedFailures
import TestCatalog.Proofs.SharedBatches

/-!
# Failed files

A batch tells which files failed or were skipped, and so does the collector, by the errors that it
holds. `failedFiles_runFiles` says where they agree: the collector misses the files that had drawn
as many warnings as it keeps events before they failed.
-/

namespace TestCatalog.Proofs

open Batch

/-! ## Findings of a file -/

lemma Calm.map_reported {journal : Journal} (h : Calm journal) :
    (reported journal).map .report = journal :=
  OnlyReports.map_reported h

lemma Calm.not_isError {journal : Journal} (h : Calm journal) :
    ∀ e ∈ reported journal, e.isError = false :=
  OnlyReports.of_mem_reported h

variable {ε α : Type} {result : Except ε α} {journal : Journal}

lemma Candid.map_reported (h : Candid result journal) :
    (reported journal).map .report = journal := by
  cases h with
  | ok a h => exact h.map_reported
  | error error h he =>
    rw [reported_append, List.map_append, h.map_reported]
    rfl

/-- The error of a file is among the findings that are kept if the warnings before it leave room. -/
lemma Candid.keeps_error_iff (h : Candid result journal) (limit : ℕ) :
    (((reported journal).filter Event.isFinding).take limit).any Event.isError ↔
      (∃ error, result = .error error) ∧ warningCount journal < limit := by
  have hcalm {before : Journal} (hbefore : Calm before) (n : ℕ) :
      (((reported before).filter Event.isFinding).take n).any Event.isError = false := by
    rw [List.any_eq_false]
    intro e he
    have hmem := List.mem_of_mem_filter (List.mem_of_mem_take he)
    simp [hbefore.not_isError e hmem]
  cases h with
  | ok a h => simp [hcalm h]
  | @error error before e h he =>
    -- the findings are the warnings, and the error after them
    have hwarnings : ((reported before).filter Event.isFinding).length = warningCount before := by
      rw [warningCount, List.countP_eq_length_filter]
      congr 1
      apply List.filter_congr
      intro e' he'
      simp [Event.isFinding, h.not_isError e' he']
    have hwarning : e.isWarning = false := by
      simp only [Event.isError, decide_eq_true_eq] at he
      simp [Event.isWarning, he]
    have hcount : warningCount (before ++ [.report e]) = warningCount before := by
      simp [warningCount, reported, hwarning]
    have hfindings : (reported (before ++ [.report e])).filter Event.isFinding =
        (reported before).filter Event.isFinding ++ [e] := by
      simp [reported, Event.isFinding, he]
    rw [hfindings, hcount, List.take_append, List.any_append, hcalm h, Bool.false_or, hwarnings]
    by_cases hlt : warningCount before < limit
    · obtain ⟨k, hk⟩ := Nat.exists_eq_add_one.mpr (Nat.sub_pos_of_lt hlt)
      simp [hk, he, hlt]
    · simp [Nat.sub_eq_zero_of_le (Nat.le_of_not_lt hlt), hlt]

/-! ## Batches -/

variable {x : Extractor} {tree : FileTree}

lemma journal_extract (x : Extractor) (tree : FileTree) (path : Path) (id : ℕ) :
    (x.extract tree path id).journal =
      FileWork.journal ⟨⟨path, id⟩, reported (x.run tree path).run.journal⟩ := by
  show .enter ⟨path, id⟩ :: (x.run tree path).run.journal ++ [.leave] =
    .enter ⟨path, id⟩ :: (reported (x.run tree path).run.journal).map .report ++ [.leave]
  rw [(candid_run x tree path).map_reported]

/-- The work of a batch is work on its files in order. -/
lemma exists_works (x : Extractor) (tree : FileTree) (base : ℕ) (paths : List Path) :
    ∃ works : List FileWork,
      (workFrom (x.extract tree) base paths).map (fun (_, done) => done.journal) =
        works.map FileWork.journal ∧
      works.map (fun work => work.file.path) = paths ∧
      ∀ work ∈ works, work.events = reported (x.run tree work.file.path).run.journal := by
  induction paths generalizing base with
  | nil => exact ⟨[], rfl, rfl, by simp⟩
  | cons path paths ih =>
    obtain ⟨works, hjournals, hpaths, hevents⟩ := ih (base + 1)
    refine ⟨⟨⟨path, base⟩, reported (x.run tree path).run.journal⟩ :: works, ?_, ?_, ?_⟩
    · rw [workFrom_cons, List.map_cons, List.map_cons, hjournals]
      exact congrArg (· :: _) (journal_extract x tree path base)
    · rw [List.map_cons, hpaths]
    · intro work hwork
      rcases List.mem_cons.mp hwork with rfl | hwork
      · rfl
      · exact hevents work hwork

lemma outcomes_extract (x : Extractor) (tree : FileTree) (base : ℕ) (paths : List Path) :
    (workFrom (x.extract tree) base paths).map (fun (path, done) => (path, done.value)) =
      paths.map fun path => (path, (x.run tree path).run.value) := by
  induction paths generalizing base with
  | nil => rfl
  | cons path paths ih =>
    rw [workFrom_cons, List.map_cons, List.map_cons, ih]
    rfl

/-- The files that the collector holds for failed after a batch. -/
lemma mem_failedFiles_runFiles (x : Extractor) (tree : FileTree) (config : BatchConfig)
    {paths : List Path} (hpaths : (paths.map Path.key).Nodup) {α : Type} [Logger α] (desk : Desk α)
    (hcurrent : desk.current = none) (hempty : desk.collector = {}) (path : Path) :
    let run := (runFiles (x.extract tree) x.mode { config with failFast := false } paths).run
    path ∈ (desk.replay run.journal).collector.failedFiles ↔
      path ∈ paths ∧ (∃ e, (x.run tree path).run.value = .error e) ∧
        warningCount (x.run tree path).run.journal < Limits.eventsPerFile := by
  intro run
  obtain ⟨own, hrun⟩ := runFiles_eq (x.extract tree) x.mode { config with failFast := false } paths
  have hrecords := records_outcomes (x.extract tree)
    (show { config with failFast := false }.failFast = false from rfl) paths
  obtain ⟨works, hjournals, hworks, hevents⟩ := exists_works x tree 0 paths
  have hwoven : Woven (works.map FileWork.journal) run.journal := by
    have happend := hrecords.journal.append (woven_reports own)
    rw [hjournals, List.append_nil] at happend
    rw [show run.journal = _ from congrArg Logged.journal hrun]
    exact happend
  have hkeys : (works.map FileWork.key).Nodup := by
    rw [← hworks, List.map_map] at hpaths
    exact hpaths
  have herror (work : FileWork) (hwork : work ∈ works) :
      (work.findings.take Limits.eventsPerFile).any Event.isError ↔
        (∃ e, (x.run tree work.file.path).run.value = .error e) ∧
          warningCount (x.run tree work.file.path).run.journal < Limits.eventsPerFile := by
    rw [FileWork.findings, hevents work hwork]
    exact (candid_run x tree work.file.path).keeps_error_iff _
  rw [mem_failedFiles_replay hwoven hkeys hcurrent hempty]
  constructor
  · rintro ⟨work, hwork, rfl, hany⟩
    refine ⟨?_, (herror work hwork).mp hany⟩
    rw [← hworks]
    exact List.mem_map_of_mem hwork
  · rintro ⟨hpath, hfailed⟩
    rw [← hworks] at hpath
    obtain ⟨work, hwork, rfl⟩ := List.mem_map.mp hpath
    exact ⟨work, hwork, rfl, (herror work hwork).mpr hfailed⟩

/-- The files whose outcome is an error are those that failed and those that were skipped. -/
lemma Tells.mem_failed_or_skipped {results : BatchResults} {outcomes : List Outcome}
    (h : Tells results outcomes) (path : Path) :
    path ∈ results.failed.map Prod.fst ∨ path ∈ results.skipped.map Prod.fst ↔
      ∃ e, (path, .error e) ∈ outcomes := by
  have htold {told : Outcome → Option (Path × ExtractionError)}
      (hwhere : ∀ outcome path e, told outcome = some (path, e) → outcome = (path, .error e))
      (hmem : path ∈ (outcomes.filterMap told).map Prod.fst) : ∃ e, (path, .error e) ∈ outcomes := by
    obtain ⟨⟨_, e⟩, hlisted, rfl⟩ := List.mem_map.mp hmem
    obtain ⟨outcome, houtcome, heq⟩ := List.mem_filterMap.mp hlisted
    exact ⟨e, hwhere outcome _ e heq ▸ houtcome⟩
  rw [h.failed, h.skipped]
  constructor
  · rintro (hmem | hmem)
    · exact htold (fun _ _ _ => eq_of_failed?) hmem
    · exact htold (fun _ _ _ => eq_of_skipped?) hmem
  · rintro ⟨e, hmem⟩
    by_cases he : e.isRecoverable = true
    · exact .inr (List.mem_map.mpr ⟨(path, e), List.mem_filterMap.mpr ⟨_, hmem, if_pos he⟩, rfl⟩)
    · exact .inl (List.mem_map.mpr ⟨(path, e), List.mem_filterMap.mpr ⟨_, hmem, if_neg he⟩, rfl⟩)

/-! ## Crowded tables -/

/-- A draft that lists the default project alone. -/
def payDraft : Draft where
  name := "<NEW>: Pay"
  description := []
  prerequisites := []
  testData := []
  steps := [⟨["Pay"], ["Paid"], ["None"]⟩]
  projects := ["MASTER"]

lemma payDraft_laidOut : payDraft.LaidOut .keywordTable where
  name := ⟨by decide, by decide⟩
  description := by decide
  prerequisites := by decide
  testData := by decide
  steps_ne_nil := by decide
  step := by decide
  projects_ne_nil := by decide
  projects := by decide
  oneLine := by decide

/-- A case of which there is the header alone. -/
def refundLine : Text := "<NEW>: Refund"

def payLines (n : ℕ) : List Text :=
  (List.replicate n payDraft).flatMap (Draft.lines .keywordTable)

/-- The table of `n` cases that draw a warning each, and of one case that fails. -/
def crowdedTable (n : ℕ) : Text :=
  tableText (payLines n ++ [refundLine])

def tableExtractor : Extractor where
  config := teamConfig
  dialect := .keywordTable
  mode := .validation
  reader := {}

def tableAssembler : Assembler :=
  ⟨teamConfig, .keywordTable, .validation, "crowd.robot"⟩

def crowdedPath : Path := ⟨"crowd.robot"⟩

def crowdedTree (n : ℕ) : FileTree :=
  .folder [("tmp", .folder [("/", .folder [("crowd.robot", .file (.text (crowdedTable n)))])])]

lemma payLines_succ (n : ℕ) :
    payLines (n + 1) = payDraft.lines .keywordTable ++ payLines n := by
  rw [payLines, List.replicate_succ, List.flatMap_cons]
  rfl

lemma isPlain_payLines (n : ℕ) : ∀ line ∈ payLines n, IsPlain line := by
  intro line hline
  obtain ⟨draft, hdraft, hline⟩ := List.mem_flatMap.mp hline
  rw [List.eq_of_mem_replicate hdraft] at hline
  have hplain : ∀ line ∈ payDraft.lines .keywordTable, IsPlain line := by decide
  exact hplain line hline

lemma isPlain_crowded (n : ℕ) : ∀ line ∈ payLines n ++ [refundLine], IsPlain line := by
  rw [List.forall_mem_append, List.forall_mem_singleton]
  exact ⟨isPlain_payLines n, by decide⟩

lemma length_payLines (n : ℕ) :
    (payLines n).length = 15 * n ∧ (terminated (payLines n)).length = 123 * n := by
  induction n with
  | zero => exact ⟨rfl, rfl⟩
  | succ n ih =>
    have hlines : (payDraft.lines .keywordTable).length = 15 := by decide
    have hlength : (terminated (payDraft.lines .keywordTable)).length = 123 := by
      rw [terminated, List.length_flatMap]
      decide
    have hterminated : terminated (payLines (n + 1)) =
        terminated (payDraft.lines .keywordTable) ++ terminated (payLines n) := by
      rw [payLines_succ, terminated, List.flatMap_append]
      rfl
    rw [hterminated, payLines_succ, List.length_append, List.length_append]
    omega

lemma read_crowded {n : ℕ} (hn : n ≤ 10000) : ∃ file,
    (tableExtractor.reader.read (crowdedTree n) crowdedPath).run.value = .ok file ∧
      file.source = crowdedTable n := by
  have hpay := length_payLines n
  have hterminated : (terminated (payLines n ++ [refundLine])).length =
      (terminated (payLines n)).length + 14 := by
    rw [terminated, List.flatMap_append, List.length_append]
    rfl
  have hlength := length_tableText (payLines n ++ [refundLine])
  have hmarker : sectionMarker.length = 18 := by decide
  have hsize := utf8Size_bounds (crowdedTable n)
  have hlines := length_lines_tableText (isPlain_crowded n)
  rw [List.length_append, List.length_singleton] at hlines
  rw [← crowdedTable] at hlength hlines
  apply read_of_text
  · rfl
  · have hmax : ¬ Limits.maxFileSize < Text.utf8Size (crowdedTable n) := by
      rw [Limits.maxFileSize]
      omega
    have hne : Text.utf8Size (crowdedTable n) ≠ 0 := by omega
    rw [FileReader.validate, if_neg hmax, if_neg hne]
    rfl
  · rw [Limits.maxLines]
    omega

lemma readCases_payLines (n : ℕ) : ∃ cases,
    (tableAssembler.readCases ⟨0, (payLines n).map Text.trimEnd⟩).result = .ok cases ∧
      cases.warnings.length = n := by
  have hlaidOut : ∀ draft ∈ List.replicate n payDraft, draft.LaidOut .keywordTable := by
    intro draft hdraft
    exact List.eq_of_mem_replicate hdraft ▸ payDraft_laidOut
  have hcheck : ∀ draft ∈ List.replicate n payDraft, Projects.check teamConfig
      (Text.trim draft.name) (draft.projects.map Text.trim) = .ok () := by
    intro draft hdraft
    rw [List.eq_of_mem_replicate hdraft]
    rfl
  have hread : (tableAssembler.readCases ⟨0, (payLines n).map Text.trimEnd ++ []⟩).result = _ :=
    readCases_drafts accepts_validation hlaidOut hcheck 0 []
  rw [List.append_nil, readCases_nil] at hread
  refine ⟨_, hread, ?_⟩
  show (ParsedCases.concat _ ++ ParsedCases.concat []).warnings.length = n
  rw [append_concat_nil, List.map_replicate, length_warnings_replicate]
  exact Nat.mul_one n

lemma readCases_refundLine :
    (tableAssembler.readCases ⟨0, [refundLine].map Text.trimEnd⟩).result =
      .error (.missingDocumentationMarker refundLine) := by
  have hkind : tableAssembler.kindOfHeader? (Text.trim (Text.trimEnd refundLine)) = some .add := by
    decide
  exact readCases_of_error hkind rfl

/-- The file of a crowded table fails after as many warnings as the table has complete cases. -/
lemma run_crowded {n : ℕ} (hn : n ≤ 10000) :
    (tableExtractor.run (crowdedTree n) crowdedPath).run.value =
        .error (.grammar (.missingDocumentationMarker refundLine)) ∧
      n ≤ warningCount (tableExtractor.run (crowdedTree n) crowdedPath).run.journal := by
  obtain ⟨file, hread, hsource⟩ := read_crowded hn
  obtain ⟨cases, hcases, hwarnings⟩ := readCases_payLines n
  have hfolder : tableExtractor.config.folderOf crowdedPath = .ok tableAssembler.folder := rfl
  have hblock : tableExtractor.dialect.filter file.source =
      .ok (Text.join "\n" (payLines n ++ [refundLine])) := by
    rw [hsource]
    exact filter_tableText (isPlain_crowded n)
  have hlines : blockLines (Text.join "\n" (payLines n ++ [refundLine])) =
      (payLines n).map Text.trimEnd ++ [refundLine].map Text.trimEnd := by
    rw [blockLines_join (isPlain_payLines n) (by decide) (by decide), List.map_append]
  obtain ⟨hvalue, hcount⟩ :=
    run_of_error hread hfolder hblock hlines hcases readCases_refundLine
  exact ⟨hvalue, hwarnings.ge.trans hcount⟩

/-- The file of a table that is crowded enough fails, but not for the collector. -/
lemma batch_crowded {n : ℕ} (hlimit : Limits.eventsPerFile ≤ n) (hn : n ≤ 10000) :
    let run := (runFiles (tableExtractor.extract (crowdedTree n)) tableExtractor.mode {}
      [crowdedPath]).run
    let after := ({ log := { minLevel := .warning, logger := ∅ } } : Desk EventBuffer).replay run.journal
    ([crowdedPath].map Path.key).Nodup ∧ ∃ results, run.value = .ok results ∧
      crowdedPath ∈ results.failed.map Prod.fst ∧ crowdedPath ∉ after.collector.failedFiles := by
  intro run after
  have hpaths : ([crowdedPath].map Path.key).Nodup := by decide
  obtain ⟨hvalue, hcount⟩ := run_crowded hn
  obtain ⟨results, hresults⟩ := exists_results (show tableExtractor.mode.isValidation = true from rfl)
    (tableExtractor.extract (crowdedTree n)) {} [crowdedPath]
  refine ⟨hpaths, results, hresults, ?_, ?_⟩
  · have htells := tells_of_runFiles hresults
    rw [(records_outcomes (tableExtractor.extract (crowdedTree n)) rfl [crowdedPath]).value,
      outcomes_extract] at htells
    rw [htells.failed, List.map_singleton, hvalue]
    exact List.mem_cons_self
  · intro hmem
    have hcollected := (mem_failedFiles_runFiles tableExtractor (crowdedTree n) {} hpaths
      ({ log := { minLevel := .warning, logger := ∅ } } : Desk EventBuffer) rfl rfl
      crowdedPath).mp hmem
    exact absurd (hlimit.trans hcount) (Nat.not_le.mpr hcollected.2.2)

/-! ## Agreement -/

/-- After a batch that returns results, the collector's failed files are those that failed or were
skipped, apart from those with too many warnings for their error to be kept. -/
theorem failedFiles_runFiles (x : Extractor) (tree : FileTree) (config : BatchConfig)
    {paths : List Path} (hpaths : (paths.map Path.key).Nodup) {results : BatchResults}
    (hresults : (runFiles (x.extract tree) x.mode { config with failFast := false } paths).run.value =
      .ok results) {α : Type} [Logger α] (log : LogService α) (attachesFile : Bool) :
    let run := (runFiles (x.extract tree) x.mode { config with failFast := false } paths).run
    let after := ({ log, attachesFile } : Desk α).replay run.journal
    ∀ path, path ∈ after.collector.failedFiles ↔
      (path ∈ results.failed.map Prod.fst ∨ path ∈ results.skipped.map Prod.fst) ∧
        warningCount (x.run tree path).run.journal < Limits.eventsPerFile := by
  intro run after path
  have hcollected := mem_failedFiles_runFiles x tree config hpaths { log, attachesFile } rfl rfl path
  have htells := tells_of_runFiles hresults
  rw [(records_outcomes (x.extract tree) rfl paths).value, outcomes_extract] at htells
  refine hcollected.trans ?_
  rw [htells.mem_failed_or_skipped]
  simp only [List.mem_map, Prod.mk.injEq]
  constructor
  · rintro ⟨hpath, ⟨e, he⟩, hcount⟩
    exact ⟨⟨e, path, hpath, rfl, he⟩, hcount⟩
  · rintro ⟨⟨e, _, hpath, rfl, he⟩, hcount⟩
    exact ⟨hpath, ⟨e, he⟩, hcount⟩

/-- A folder with an empty file. -/
def suiteTree : FileTree :=
  .folder [("tmp", .folder [("/", .folder [("empty.feature", .file (.text []))])])]

def suiteExtractor : Extractor :=
  { tableExtractor with dialect := .featureScenario }

def suitePaths : List Path := [⟨"empty.feature"⟩, ⟨"missing.feature"⟩]

def suiteResults : BatchResults where
  failed := [(⟨"missing.feature"⟩, .file (.notFound ⟨"missing.feature"⟩))]
  skipped := [(⟨"empty.feature"⟩, .file (.empty ⟨"empty.feature"⟩))]
  processed := 2
  discovered := 2

theorem failedFiles_runFiles_suite :
    let run := (runFiles (suiteExtractor.extract suiteTree) suiteExtractor.mode {} suitePaths).run
    let after := ({ log := { minLevel := .warning, logger := ∅ } } : Desk EventBuffer).replay run.journal
    (suitePaths.map Path.key).Nodup ∧ run.value = .ok suiteResults ∧
      ∀ path, path ∈ after.collector.failedFiles ↔
        (path ∈ suiteResults.failed.map Prod.fst ∨ path ∈ suiteResults.skipped.map Prod.fst) ∧
          warningCount (suiteExtractor.run suiteTree path).run.journal < Limits.eventsPerFile := by
  have hpaths : (suitePaths.map Path.key).Nodup := by decide
  have hresults : (runFiles (suiteExtractor.extract suiteTree) suiteExtractor.mode {}
      suitePaths).run.value = .ok suiteResults := rfl
  refine ⟨hpaths, hresults, ?_⟩
  exact failedFiles_runFiles suiteExtractor suiteTree {} hpaths hresults
    { minLevel := .warning, logger := ∅ } true

/-- The error of a file that fails after a thousand warnings is not kept. -/
theorem failedFiles_runFiles_crowded :
    let run := (runFiles (tableExtractor.extract (crowdedTree 1000)) tableExtractor.mode {}
      [crowdedPath]).run
    let after := ({ log := { minLevel := .warning, logger := ∅ } } : Desk EventBuffer).replay run.journal
    ([crowdedPath].map Path.key).Nodup ∧ ∃ results, run.value = .ok results ∧
      crowdedPath ∈ results.failed.map Prod.fst ∧ crowdedPath ∉ after.collector.failedFiles := by
  have hlimit : Limits.eventsPerFile ≤ 1000 := Nat.le_refl 1000
  exact batch_crowded hlimit (by decide)

end TestCatalog.Proofs
