import TestCatalog.Batch.Run
import TestCatalog.Proofs.Journals
import TestCatalog.Proofs.Runs

/-!
# Shared batches

A batch that is shared out to workers cuts its files twice, into chunks and into slices, and puts
the outcomes together again. `runFiles_either_way` says that nothing of this shows: every file is
worked on once, under its number in the batch, and the answer is that of the batch run alone.
-/

namespace TestCatalog.Proofs

open Batch

/-- The work on the files from number `base` on, each file under its own number. -/
def workFrom (job : Job) (base : ℕ) (paths : List Path) :
    List (Path × Logged (Except ExtractionError Extraction)) :=
  paths.mapIdx fun i path => (path, job path (base + i))

/-- A run tells the outcomes of the work in order, and does nothing itself but report. -/
structure Records (work : List (Path × Logged (Except ExtractionError Extraction)))
    (run : Logged (List Outcome)) : Prop where
  value : run.value = work.map fun (path, done) => (path, done.value)
  journal : Woven (work.map fun (_, done) => done.journal) run.journal

variable {job : Job}

lemma workFrom_cons (base : ℕ) (path : Path) (paths : List Path) :
    workFrom job base (path :: paths) = (path, job path base) :: workFrom job (base + 1) paths := by
  simp only [workFrom, List.mapIdx_cons, Nat.add_zero]
  congr 2
  funext i path
  rw [Nat.add_right_comm, Nat.add_assoc]

lemma Records.nil : Records [] (pure []) :=
  ⟨rfl, .nil⟩

lemma Records.append {work work' : List (Path × Logged (Except ExtractionError Extraction))}
    {run run' : Logged (List Outcome)} (h : Records work run) (h' : Records work' run') :
    Records (work ++ work')
      { value := run.value ++ run'.value, journal := run.journal ++ run'.journal } where
  value := by rw [h.value, h'.value, List.map_append]
  journal := by
    rw [List.map_append]
    exact h.journal.append h'.journal

lemma woven_reports_outcomes (outcomes : List Outcome) :
    Woven [] (outcomes.flatMap BatchResults.reports) := by
  induction outcomes with
  | nil => exact .nil
  | cons outcome outcomes ih =>
    rw [List.flatMap_cons]
    rcases outcome with ⟨path, e | x⟩
    · exact ih.report _
    · exact ih

/-! ## Stopping -/

section Stopping

variable {α : Type} {stops : α → Bool}

/-- The elements up to the first one that stops, or all of them. -/
def upTo (stops : α → Bool) (l : List α) : List α :=
  l.take (l.findIdx stops + 1)

lemma upTo_cons_of_pos {a : α} (h : stops a = true) (l : List α) : upTo stops (a :: l) = [a] := by
  rw [upTo, List.findIdx_cons, h]
  rfl

lemma upTo_cons_of_neg {a : α} (h : stops a = false) (l : List α) :
    upTo stops (a :: l) = a :: upTo stops l := by
  rw [upTo, List.findIdx_cons, h]
  rfl

lemma upTo_of_forall {l : List α} (h : ∀ a ∈ l, stops a = false) : upTo stops l = l := by
  rw [upTo, List.findIdx_eq_length_of_false h]
  exact List.take_of_length_le (Nat.le_succ _)

end Stopping

/-- Whether a batch ends with the work on a file: it failed, and the batch fails fast. -/
def endsBatch (failFast : Bool) (work : Path × Logged (Except ExtractionError Extraction)) : Bool :=
  isFailure work.2.value && failFast

def endsWithin (failFast : Bool)
    (chunk : List (Path × Logged (Except ExtractionError Extraction))) : Bool :=
  chunk.any (endsBatch failFast)

lemma endsBatch_false (work : Path × Logged (Except ExtractionError Extraction)) :
    endsBatch false work = false :=
  Bool.and_false _

lemma endsWithin_false (chunk : List (Path × Logged (Except ExtractionError Extraction))) :
    endsWithin false chunk = false :=
  List.any_eq_false.mpr fun work _ => by simp [endsBatch_false]

lemma failureCount_ofOutcomes (outcomes : List Outcome) :
    (BatchResults.ofOutcomes outcomes).failureCount =
      outcomes.countP fun outcome => isFailure outcome.2 := by
  induction outcomes with
  | nil => rfl
  | cons outcome outcomes ih =>
    rw [List.countP_cons, ← ih]
    rcases outcome with ⟨path, e | x⟩
    · cases he : e.isRecoverable <;>
        simp [BatchResults.ofOutcomes, BatchResults.cons, BatchResults.failureCount, isFailure, he]
    · rfl

/-- As long as nothing failed before a chunk, the failures by its end are those of the chunk. -/
lemma endsWithin_iff (failFast : Bool)
    {chunk : List (Path × Logged (Except ExtractionError Extraction))} {run : Logged (List Outcome)}
    (h : run.value = chunk.map fun (path, done) => (path, done.value)) {failures : ℕ}
    (hbefore : failFast = true → failures = 0) :
    endsWithin failFast chunk = true ↔ failFast = true ∧
      0 < failures + (BatchResults.ofOutcomes run.value).failureCount := by
  cases failFast with
  | true =>
    obtain rfl := hbefore rfl
    rw [Nat.zero_add, failureCount_ofOutcomes, h, List.countP_map, List.countP_pos_iff, endsWithin,
      List.any_eq_true]
    simp [endsBatch]
  | false => simp [endsWithin_false chunk]

/-! ## One after another -/

lemma records_file (path : Path) (done : Logged (Except ExtractionError Extraction)) :
    Records [(path, done)]
      { value := [(path, done.value)]
        journal := done.journal ++ BatchResults.reports (path, done.value) } := by
  refine ⟨rfl, .piece _ ?_⟩
  have hreports := woven_reports_outcomes [(path, done.value)]
  rwa [List.flatMap_singleton] at hreports

theorem records_runSequential (job : Job) (failFast : Bool) (base : ℕ) (paths : List Path) :
    Records (upTo (endsBatch failFast) (workFrom job base paths))
      (runSequential job failFast base paths) := by
  induction paths generalizing base with
  | nil => exact .nil
  | cons path paths ih =>
    have hfirst := records_file path (job path base)
    rw [workFrom_cons, runSequential]
    dsimp only
    cases hends : isFailure (job path base).value && failFast with
    | true =>
      have hends : endsBatch failFast (path, job path base) = true := hends
      rw [upTo_cons_of_pos hends, if_pos rfl]
      exact ⟨hfirst.value, hfirst.journal.append (woven_reports [stopping])⟩
    | false =>
      have hends : endsBatch failFast (path, job path base) = false := hends
      rw [upTo_cons_of_neg hends, if_neg Bool.false_ne_true]
      exact hfirst.append (ih (base + 1))

/-! ## Shared out -/

lemma chunks_nil {α : Type} (n : ℕ) : chunks n ([] : List α) = [] := by
  rw [chunks]
  simp

lemma chunks_eq {α : Type} {n : ℕ} (hn : n ≠ 0) {l : List α} (hl : l ≠ []) :
    chunks n l = l.take n :: chunks n (l.drop n) := by
  rw [chunks]
  simp [hn, hl]

/-- Induction along the pieces into which a list is cut. -/
@[elab_as_elim]
theorem chunks_induction {α : Type} {n : ℕ} (hn : n ≠ 0) {motive : List α → Prop}
    (nil : motive []) (piece : ∀ l, l ≠ [] → motive (l.drop n) → motive l) (l : List α) :
    motive l := by
  induction hlen : l.length using Nat.strongRecOn generalizing l with
  | ind len ih =>
    subst hlen
    by_cases hl : l = []
    · rw [hl]
      exact nil
    · have hlt : (l.drop n).length < l.length := by
        have hpos := List.length_pos_iff.mpr hl
        rw [List.length_drop]
        omega
      exact piece l hl (ih _ hlt _ rfl)

lemma map_mapIdx {α β γ : Type} (f : β → γ) (g : ℕ → α → β) (l : List α) :
    (l.mapIdx g).map f = l.mapIdx fun i a => f (g i a) := by
  rw [List.mapIdx_eq_zipIdx_map, List.mapIdx_eq_zipIdx_map, List.map_map]
  rfl

/-- The first `n` elements and the others, whose numbers go on `n` later. -/
lemma mapIdx_take_drop {α β : Type} (f : ℕ → α → β) (base n : ℕ) (l : List α) :
    (l.mapIdx fun i a => f (base + i) a) = ((l.take n).mapIdx fun i a => f (base + i) a) ++
      (l.drop n).mapIdx fun i a => f (base + n + i) a := by
  conv_lhs => rw [← List.take_append_drop n l, List.mapIdx_append]
  by_cases hle : n ≤ l.length
  · rw [List.length_take_of_le hle]
    simp only [Nat.add_assoc, Nat.add_comm n]
  · rw [List.drop_eq_nil_of_le (Nat.le_of_not_le hle)]
    rfl

/-- Counting on from piece to piece counts the elements of the list. -/
lemma flatten_mapIdx_chunks {α β : Type} {n : ℕ} (hn : n ≠ 0) (f : ℕ → α → β) (base : ℕ)
    (l : List α) :
    ((chunks n l).mapIdx fun k piece => piece.mapIdx fun i a => f (base + k * n + i) a).flatten =
      l.mapIdx fun i a => f (base + i) a := by
  induction l using chunks_induction hn generalizing base with
  | nil =>
    rw [chunks_nil]
    rfl
  | piece l hl ih =>
    have hstep (k : ℕ) : base + (k + 1) * n = base + n + k * n := by
      rw [Nat.add_one_mul, Nat.add_comm (k * n), Nat.add_assoc]
    rw [mapIdx_take_drop f base n l, ← ih (base + n)]
    simp only [chunks_eq hn hl, List.mapIdx_cons, hstep, List.flatten_cons, Nat.zero_mul,
      Nat.add_zero]

lemma workFrom_take_drop (base n : ℕ) (paths : List Path) :
    workFrom job base paths =
      workFrom job base (paths.take n) ++ workFrom job (base + n) (paths.drop n) :=
  mapIdx_take_drop (fun id path => (path, job path id)) base n paths

/-- What the workers of a chunk make of their slices. -/
def slicesFrom (job : Job) (size base : ℕ) (chunk : List Path) : List (Logged (List Outcome)) :=
  (chunks size chunk).mapIdx fun slot slice => runSlice job (base + slot * size) slice

/-- The slices of a chunk, put together, are the work on the chunk. -/
lemma flatMap_slicesFrom (job : Job) {size : ℕ} (hsize : size ≠ 0) (base : ℕ)
    (chunk : List Path) :
    (slicesFrom job size base chunk).flatMap Logged.value =
        (workFrom job base chunk).map (fun (path, done) => (path, done.value)) ∧
      (slicesFrom job size base chunk).flatMap Logged.journal =
        ((workFrom job base chunk).map fun (_, done) => done.journal).flatten := by
  have hvalue := flatten_mapIdx_chunks hsize (fun id path => (path, (job path id).value)) base chunk
  have hjournal := flatten_mapIdx_chunks hsize (fun id path => (job path id).journal) base chunk
  constructor
  · simpa only [slicesFrom, runSlice, workFrom, List.flatMap_def, map_mapIdx] using hvalue
  · have hjoined := congrArg List.flatten hjournal
    rw [List.flatten_flatten, map_mapIdx] at hjoined
    simpa only [slicesFrom, runSlice, workFrom, List.flatMap_def, map_mapIdx] using hjoined

theorem records_runChunk (job : Job) {size : ℕ} (hsize : size ≠ 0) (base : ℕ) (chunk : List Path) :
    Records (workFrom job base chunk) (runChunk job size base chunk) := by
  obtain ⟨hvalue, hjournal⟩ := flatMap_slicesFrom job hsize base chunk
  refine ⟨hvalue, ?_⟩
  have hslices := woven_flatten ((workFrom job base chunk).map fun (_, done) => done.journal)
  have hwoven := hslices.append (woven_reports_outcomes (runChunk job size base chunk).value)
  rw [List.append_nil, ← hjournal] at hwoven
  exact hwoven

lemma length_workFrom (base : ℕ) (paths : List Path) :
    (workFrom job base paths).length = paths.length :=
  List.length_mapIdx

lemma chunks_workFrom {n : ℕ} (hn : n ≠ 0) (base : ℕ) {paths : List Path} (hpaths : paths ≠ []) :
    chunks n (workFrom job base paths) =
      workFrom job base (paths.take n) :: chunks n (workFrom job (base + n) (paths.drop n)) := by
  have hwork : workFrom job base paths ≠ [] := by
    intro hnil
    have hlength : (workFrom job base paths).length = paths.length := length_workFrom base paths
    rw [hnil] at hlength
    exact hpaths (List.eq_nil_of_length_eq_zero hlength.symm)
  have hsplit := (List.take_append_drop n (workFrom job base paths)).trans
    (workFrom_take_drop base n paths)
  obtain ⟨htake, hdrop⟩ := List.append_inj hsplit (by simp only [List.length_take, length_workFrom])
  rw [chunks_eq hn hwork, htake, hdrop]

/-- Chunks take the numbers of the batch one after another, up to the chunk that ends it. A batch
that fails fast only goes on as long as nothing has failed. -/
theorem records_runChunks (job : Job) (failFast : Bool) {size threads failures : ℕ}
    (hchunk : size * threads ≠ 0) (hbefore : failFast = true → failures = 0) (index : ℕ)
    (paths : List Path) :
    Records (upTo (endsWithin failFast)
        (chunks (size * threads) (workFrom job (index * size * threads) paths))).flatten
      (runChunks job failFast size threads failures index (chunks (size * threads) paths)) := by
  have hsize : size ≠ 0 := fun h => hchunk (by rw [h, Nat.zero_mul])
  induction paths using chunks_induction hchunk generalizing failures index with
  | nil =>
    have hwork : workFrom job (index * size * threads) [] = [] := rfl
    rw [hwork, chunks_nil, chunks_nil]
    exact .nil
  | piece paths hnil ih =>
    have hbase : index * size * threads + size * threads = (index + 1) * size * threads := by
      rw [Nat.mul_assoc, Nat.mul_assoc, Nat.add_one_mul]
    have hfirst := records_runChunk job hsize (index * size * threads)
      (paths.take (size * threads))
    have hends := endsWithin_iff failFast hfirst.value hbefore
    rw [chunks_eq hchunk hnil, chunks_workFrom hchunk _ hnil, hbase, runChunks]
    dsimp only
    split
    next hstop =>
      rw [upTo_cons_of_pos (hends.mpr hstop), List.flatten_singleton]
      have hjournal := hfirst.journal.append (woven_reports [stopping])
      rw [List.append_nil] at hjournal
      exact ⟨hfirst.value, hjournal⟩
    next hgoes =>
      have hnone (hfast : failFast = true) :=
        Nat.eq_zero_of_not_pos fun hfailed => hgoes ⟨hfast, hfailed⟩
      rw [upTo_cons_of_neg (Bool.eq_false_iff.mpr (mt hends.mp hgoes)), List.flatten_cons]
      exact hfirst.append (ih hnone (index + 1))

lemma sliceSize_ne_zero (files threads : ℕ) : sliceSize files threads ≠ 0 := by
  simp only [sliceSize]
  omega

lemma flatten_chunks {α : Type} {n : ℕ} (hn : n ≠ 0) (l : List α) : (chunks n l).flatten = l := by
  induction l using chunks_induction hn with
  | nil =>
    rw [chunks_nil]
    rfl
  | piece l hl ih => rw [chunks_eq hn hl, List.flatten_cons, ih, List.take_append_drop]

lemma records_runParallel (job : Job) (failFast : Bool) (threads : ℕ) (paths : List Path) :
    Records (upTo (endsWithin failFast)
        (chunks (sliceSize paths.length (max 1 threads) * max 1 threads)
          (workFrom job 0 paths))).flatten
      (runParallel job failFast threads paths) := by
  have hthreads : max 1 threads ≠ 0 := by omega
  have hchunk := Nat.mul_ne_zero (sliceSize_ne_zero paths.length (max 1 threads)) hthreads
  have hbefore : failFast = true → 0 = 0 := fun _ => rfl
  have hrun := records_runChunks job failFast hchunk hbefore 0 paths
  rw [Nat.zero_mul, Nat.zero_mul] at hrun
  exact ⟨hrun.value, hrun.journal.report _⟩

/-- However the files are shared out, each is worked on under its number. -/
theorem records_outcomes (job : Job) {config : BatchConfig} (hconfig : config.failFast = false)
    (paths : List Path) : Records (workFrom job 0 paths) (outcomes job config paths) := by
  unfold outcomes
  rw [hconfig]
  split_ifs with hparallel
  · have hthreads : max 1 config.threads ≠ 0 := by omega
    have hchunk := Nat.mul_ne_zero (sliceSize_ne_zero paths.length (max 1 config.threads)) hthreads
    have hrun := records_runParallel job false config.threads paths
    rwa [upTo_of_forall fun chunk _ => endsWithin_false chunk, flatten_chunks hchunk] at hrun
  · have hrun := records_runSequential job false 0 paths
    rwa [upTo_of_forall fun work _ => endsBatch_false work] at hrun

/-! ## Results -/

def successful? : Outcome → Option (Path × Extraction)
  | (path, .ok x) => some (path, x)
  | (_, .error _) => none

def failed? : Outcome → Option (Path × ExtractionError)
  | (_, .ok _) => none
  | (path, .error e) => if e.isRecoverable then none else some (path, e)

def skipped? : Outcome → Option (Path × ExtractionError)
  | (_, .ok _) => none
  | (path, .error e) => if e.isRecoverable then some (path, e) else none

lemma eq_of_failed? {outcome : Outcome} {path : Path} {e : ExtractionError}
    (h : failed? outcome = some (path, e)) : outcome = (path, .error e) := by
  rcases outcome with ⟨path', e' | x⟩
  · simp only [failed?] at h
    split_ifs at h
    cases h
    rfl
  · cases h

lemma eq_of_skipped? {outcome : Outcome} {path : Path} {e : ExtractionError}
    (h : skipped? outcome = some (path, e)) : outcome = (path, .error e) := by
  rcases outcome with ⟨path', e' | x⟩
  · simp only [skipped?] at h
    split_ifs at h
    cases h
    rfl
  · cases h

/-- The results of a batch that tell the outcomes of `outcomes`, each list in their order. -/
structure Tells (results : BatchResults) (outcomes : List Outcome) : Prop where
  successful : results.successful = outcomes.filterMap successful?
  failed : results.failed = outcomes.filterMap failed?
  skipped : results.skipped = outcomes.filterMap skipped?
  processed : results.processed = outcomes.length

theorem tells_ofOutcomes (outcomes : List Outcome) :
    Tells (BatchResults.ofOutcomes outcomes) outcomes := by
  induction outcomes with
  | nil => exact ⟨rfl, rfl, rfl, rfl⟩
  | cons outcome outcomes ih =>
    have hcons : BatchResults.ofOutcomes (outcome :: outcomes) =
        (BatchResults.ofOutcomes outcomes).cons outcome := rfl
    obtain ⟨hsuccessful, hfailed, hskipped, hprocessed⟩ := ih
    rw [hcons]
    rcases outcome with ⟨path, e | x⟩
    · by_cases he : e.isRecoverable = true
      · constructor <;>
          simp [BatchResults.cons, List.filterMap_cons, successful?, failed?, skipped?, he,
            hsuccessful, hfailed, hskipped, hprocessed]
      · constructor <;>
          simp [BatchResults.cons, List.filterMap_cons, successful?, failed?, skipped?, he,
            hsuccessful, hfailed, hskipped, hprocessed]
    · constructor <;>
        simp [BatchResults.cons, List.filterMap_cons, successful?, failed?, skipped?, hsuccessful,
          hfailed, hskipped, hprocessed]

/-- Every outcome is told in one of the three lists. -/
lemma Tells.processed_eq {results : BatchResults} {outcomes : List Outcome}
    (h : Tells results outcomes) : results.processed =
      results.successful.length + results.failed.length + results.skipped.length := by
  rw [h.processed, h.successful, h.failed, h.skipped]
  clear h
  induction outcomes with
  | nil => rfl
  | cons outcome outcomes ih =>
    rcases outcome with ⟨path, e | x⟩
    · by_cases he : e.isRecoverable = true
      · simp [List.filterMap_cons, successful?, failed?, skipped?, he, ih]
        omega
      · simp [List.filterMap_cons, successful?, failed?, skipped?, he, ih]
        omega
    · simp [List.filterMap_cons, successful?, failed?, skipped?, ih]
      omega

lemma foldl_append_eq {α : Type} (f : α → ParsedCases) (files : List α) (cases : ParsedCases) :
    files.foldl (fun cases file => cases ++ f file) cases = cases ++ .concat (files.map f) := by
  induction files generalizing cases with
  | nil => exact (append_concat_nil cases).symm
  | cons file files ih =>
    rw [List.foldl_cons, ih, append_assoc]
    rfl

/-- The cases of a batch are those of its successful files, merged one after another. -/
lemma cases_eq_foldl (results : BatchResults) : results.cases =
    results.successful.foldl (fun cases file => cases ++ file.2.cases) {} := by
  rw [foldl_append_eq]
  rfl

/-! ## Whole batches -/

/-- A batch tells its outcomes unless they exceed the limit, and closes with reports. -/
lemma runFiles_eq (job : Job) (mode : SyncMode) (config : BatchConfig) (paths : List Path) :
    let done := outcomes job config paths
    let results := { BatchResults.ofOutcomes done.value with discovered := paths.length }
    ∃ own : List Event, (runFiles job mode config paths).run =
      { value := if mode.isValidation ∨ results.caseCount ≤ Limits.maxCases then .ok results
          else .error (.tooManyCases results.caseCount)
        journal := done.journal ++ own.map .report } := by
  intro done results
  unfold runFiles
  rw [run_lift_bind]
  dsimp only
  rw [run_lift_bind]
  by_cases hlimit : mode.isValidation ∨ results.caseCount ≤ Limits.maxCases
  · have hcheck : checkLimit mode results = .ok () := if_pos hlimit
    refine ⟨[completed results], ?_⟩
    rw [hcheck, if_pos hlimit]
    rfl
  · have hcheck : checkLimit mode results = .error (.tooManyCases results.caseCount) :=
      if_neg hlimit
    refine ⟨[completed results, overLimit (.tooManyCases results.caseCount) results.caseCount], ?_⟩
    rw [hcheck, if_neg hlimit]
    rfl

/-- Validation has results, however many cases it finds. -/
lemma exists_results {mode : SyncMode} (h : mode.isValidation = true) (job : Job)
    (config : BatchConfig) (paths : List Path) :
    ∃ results, (runFiles job mode config paths).run.value = .ok results := by
  obtain ⟨own, hrun⟩ := runFiles_eq job mode config paths
  rw [if_pos (.inl h)] at hrun
  exact ⟨_, congrArg Logged.value hrun⟩

lemma tells_of_runFiles {job : Job} {mode : SyncMode} {config : BatchConfig} {paths : List Path}
    {results : BatchResults} (h : (runFiles job mode config paths).run.value = .ok results) :
    Tells results (outcomes job config paths).value := by
  obtain ⟨own, hrun⟩ := runFiles_eq job mode config paths
  rw [hrun] at h
  dsimp only at h
  split_ifs at h
  cases h
  obtain ⟨hsuccessful, hfailed, hskipped, hlength⟩ :=
    tells_ofOutcomes (outcomes job config paths).value
  exact ⟨hsuccessful, hfailed, hskipped, hlength⟩

/-- A batch that is shared out gives the answer of the batch that is not. -/
theorem runFiles_either_way (job : Job) (mode : SyncMode) (config : BatchConfig)
    (paths : List Path) :
    let run (parallel : Bool) :=
      (runFiles job mode { config with parallel, failFast := false } paths).run
    let work := paths.mapIdx fun id path => (path, job path id)
    let outcomes := work.map fun (path, done) => (path, done.value)
    ∃ results : BatchResults,
      -- each list holds its files in the order of the batch
      results.successful = outcomes.filterMap successful? ∧
      results.failed = outcomes.filterMap failed? ∧
      results.skipped = outcomes.filterMap skipped? ∧
      -- and every file is in one of them
      results.processed =
        results.successful.length + results.failed.length + results.skipped.length ∧
      results.processed = paths.length ∧ results.discovered = paths.length ∧
      results.cases = results.successful.foldl (fun cases file => cases ++ file.2.cases) {} ∧
      ∀ parallel,
        (run parallel).value =
          (if mode.isValidation ∨ results.caseCount ≤ Limits.maxCases then .ok results
            else .error (.tooManyCases results.caseCount)) ∧
        -- beside the work on each file under its number, the batch only reports
        ∃ own : List Event, (run parallel).journal.Perm
          (work.flatMap (fun (_, done) => done.journal) ++ own.map .report) := by
  intro run work outcomes
  have hwork : workFrom job 0 paths = work := by simp only [workFrom, Nat.zero_add, work]
  have hprocessed : outcomes.length = paths.length := by simp [outcomes, work]
  -- either way the outcomes are those of the work, so the results are too
  have hrecords (parallel : Bool) : Records work
      (Batch.outcomes job { config with parallel, failFast := false } paths) :=
    hwork ▸ records_outcomes job rfl paths
  let results := { BatchResults.ofOutcomes outcomes with discovered := paths.length }
  have htells : Tells results outcomes := by
    obtain ⟨hsuccessful, hfailed, hskipped, hlength⟩ := tells_ofOutcomes outcomes
    exact ⟨hsuccessful, hfailed, hskipped, hlength⟩
  refine ⟨results, htells.successful, htells.failed, htells.skipped, htells.processed_eq,
    htells.processed.trans hprocessed, rfl, cases_eq_foldl results, fun parallel => ?_⟩
  obtain ⟨closing, hrun⟩ := runFiles_eq job mode { config with parallel, failFast := false } paths
  have hvalue := (hrecords parallel).value
  obtain ⟨own, hown⟩ :=
    ((hrecords parallel).journal.append (woven_reports closing)).perm
  rw [hvalue] at hrun
  refine ⟨congrArg Logged.value hrun, own, ?_⟩
  rw [congrArg Logged.journal hrun]
  rwa [List.append_nil, ← List.flatMap_def] at hown

end TestCatalog.Proofs
