import TestCatalog.Batch.Discovery
import TestCatalog.Batch.Results

/-!
# Batch runs

A batch runs one job per file, one after another or in slices shared out to workers. Outcomes are
recorded in the order of the files either way.
-/

namespace TestCatalog

/-- How the files of a batch are found and shared out. -/
structure BatchConfig where
  threads : Nat := 1
  recursive : Bool := true
  parallel : Bool := false
  cap : Option Nat := none
  failFast : Bool := false

def BatchConfig.ofPreferences (prefs : BatchPreferences) : BatchConfig where
  recursive := prefs.recursive
  parallel := prefs.parallel
  failFast := prefs.failFast

namespace Batch

/-- What is done with a file, given its number in the batch. -/
abbrev Job := Path → Nat → Logged (Except ExtractionError Extraction)

def isFailure : Except ExtractionError Extraction → Bool
  | .ok _ => false
  | .error e => !e.isRecoverable

def stopping : Event :=
  .warning .warning "Fail-fast mode enabled, stopping batch processing"

/-! ## One after another -/

/-- The outcomes of the files from number `id` on. With `failFast` a failure is the last one. -/
def runSequential (job : Job) (failFast : Bool) : (id : Nat) → List Path → Logged (List Outcome)
  | _, [] => pure []
  | id, path :: paths =>
    let done := job path id
    let outcome : Outcome := (path, done.value)
    let journal := done.journal ++ BatchResults.reports outcome
    if isFailure done.value && failFast then
      { value := [outcome], journal := journal ++ [.report stopping] }
    else
      let rest := runSequential job failFast (id + 1) paths
      { value := outcome :: rest.value, journal := journal ++ rest.journal }

/-! ## Shared out -/

/-- Consecutive pieces of `n` elements, the last one perhaps shorter. -/
def chunks {α : Type} (n : Nat) (l : List α) : List (List α) :=
  if n = 0 ∨ l = [] then []
  else l.take n :: chunks n (l.drop n)
termination_by l.length
decreasing_by
  rename_i h
  have := List.length_pos_iff.2 (not_or.1 h).2
  rw [List.length_drop]
  omega

/-- How many files a worker takes at a time: an even share, between 1 and 50. -/
def sliceSize (files threads : Nat) : Nat :=
  let threads := max 1 threads
  min 50 (max 1 ((files + threads - 1) / threads))

/-- One worker's files, whose numbers start at `offset`. -/
def runSlice (job : Job) (offset : Nat) (slice : List Path) : Logged (List Outcome) :=
  let done := slice.mapIdx fun i path => (path, job path (offset + i))
  { value := done.map fun (path, d) => (path, d.value)
    journal := done.flatMap fun (_, d) => d.journal }

def runChunk (job : Job) (size base : Nat) (chunk : List Path) : Logged (List Outcome) :=
  let done := (chunks size chunk).mapIdx fun slot slice => runSlice job (base + slot * size) slice
  let outcomes := done.flatMap Logged.value
  { value := outcomes
    journal := done.flatMap Logged.journal ++ outcomes.flatMap BatchResults.reports }

/-- The outcomes of the chunks from number `index` on, where `failures` files have failed before.
With `failFast` a chunk is the last one if a file has failed by its end. -/
def runChunks (job : Job) (failFast : Bool) (size threads : Nat) :
    (failures index : Nat) → List (List Path) → Logged (List Outcome)
  | _, _, [] => pure []
  | failures, index, chunk :: rest =>
    let done := runChunk job size (index * size * threads) chunk
    let failures := failures + (BatchResults.ofOutcomes done.value).failureCount
    if failFast ∧ 0 < failures then
      { value := done.value, journal := done.journal ++ [.report stopping] }
    else
      let others := runChunks job failFast size threads failures (index + 1) rest
      { value := done.value ++ others.value, journal := done.journal ++ others.journal }

def sharing (files size threads : Nat) : Event :=
  (Event.debug "Parallel processing configuration").withDetails
    [("total_files", Text.ofNat files), ("slice_size", Text.ofNat size),
      ("threads", Text.ofNat threads)]

/-- The outcomes of the files, shared out to workers chunk by chunk. -/
def runParallel (job : Job) (failFast : Bool) (threads : Nat) (paths : List Path) :
    Logged (List Outcome) := do
  let threads := max 1 threads
  let size := sliceSize paths.length threads
  Logged.note (sharing paths.length size threads)
  runChunks job failFast size threads 0 0 (chunks (size * threads) paths)

/-! ## Whole batches -/

def completed (r : BatchResults) : Event :=
  (Event.info .completed "Batch processing completed").withDetails
    [("files_processed", Text.ofNat r.processed), ("successful", Text.ofNat r.successful.length),
      ("failed", Text.ofNat r.failureCount), ("skipped", Text.ofNat r.skipped.length)]

/-- The limit on cases that one run may add or update; validation has none. -/
def checkLimit (mode : SyncMode) (r : BatchResults) : Except BatchError Unit :=
  if mode.isValidation ∨ r.caseCount ≤ Limits.maxCases then .ok ()
  else .error (.tooManyCases r.caseCount)

def overLimit (e : BatchError) (found : Nat) : Event :=
  (Event.error e.code e.message).withDetail ("found", Text.ofNat found)

def outcomes (job : Job) (config : BatchConfig) (paths : List Path) : Logged (List Outcome) :=
  if config.parallel ∧ 1 < config.threads then
    runParallel job config.failFast config.threads paths
  else runSequential job config.failFast 0 paths

def runFiles (job : Job) (mode : SyncMode) (config : BatchConfig) (paths : List Path) :
    ExceptT BatchError Logged BatchResults := do
  let outcomes ← outcomes job config paths
  let results := { BatchResults.ofOutcomes outcomes with discovered := paths.length }
  Logged.note (completed results)
  match checkLimit mode results with
  | .ok () => return results
  | .error e =>
    Logged.note (overLimit e results.caseCount)
    throw e

def runDirectory (x : Extractor) (config : BatchConfig) (root : FileTree) (directory : Path) :
    ExceptT BatchError Logged BatchResults := do
  let files ← Discovery.run
    { directory, dialect := x.dialect, recursive := config.recursive, cap := config.cap } root
  runFiles (x.extract root) x.mode config files

end Batch

end TestCatalog
