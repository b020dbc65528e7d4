import TestCatalog.Source.Extract

/-!
# Batch results

The outcome of a batch file by file. A file that fails with a recoverable error is skipped, and
every other failure is reported as one.
-/

namespace TestCatalog

/-- The files of a batch by their outcome, each list in the order of the batch. -/
structure BatchResults where
  successful : List (Path × Extraction) := []
  failed : List (Path × ExtractionError) := []
  skipped : List (Path × ExtractionError) := []
  processed : Nat := 0
  discovered : Nat := 0

abbrev Outcome := Path × Except ExtractionError Extraction

namespace BatchResults

def skipping (path : Path) (e : ExtractionError) : Event :=
  (Event.warning .warning "Skipping file").withDetails
    [("file", path.spelling), ("reason", e.message)]

def failing (path : Path) (e : ExtractionError) : Event :=
  (Event.error e.code "File contributes no test cases").withDetails
    [("file", path.spelling), ("error", e.message)]

def reports : Outcome → Journal
  | (_, .ok _) => []
  | (path, .error e) => [.report (if e.isRecoverable then skipping path e else failing path e)]

def cons (outcome : Outcome) (rest : BatchResults) : BatchResults :=
  let rest := { rest with processed := rest.processed + 1 }
  match outcome with
  | (path, .ok x) => { rest with successful := (path, x) :: rest.successful }
  | (path, .error e) =>
    if e.isRecoverable then { rest with skipped := (path, e) :: rest.skipped }
    else { rest with failed := (path, e) :: rest.failed }

def ofOutcomes (outcomes : List Outcome) : BatchResults :=
  outcomes.foldr cons {}

def cases (r : BatchResults) : ParsedCases :=
  .concat (r.successful.map fun (_, x) => x.cases)

def caseCount (r : BatchResults) : Nat :=
  r.cases.size

def failureCount (r : BatchResults) : Nat :=
  r.failed.length

def successRate (r : BatchResults) : Ratio :=
  rate r.successful.length r.processed

/-- The batch in one line; `milliseconds` is how long it took. -/
def summary (r : BatchResults) (milliseconds : Nat) : Text :=
  "Batch processing completed: " ++ Text.ofNat r.processed ++ " files processed, " ++
    Text.ofNat r.successful.length ++ " successful (" ++
    (r.successRate * Ratio.ofNat 100).fixed 1 ++ "%), " ++ Text.ofNat r.failureCount ++
    " failed, " ++ Text.ofNat r.skipped.length ++ " skipped, " ++ Text.ofNat r.caseCount ++
    " test cases, " ++ (seconds milliseconds).fixed 2 ++ "s total"

end BatchResults

end TestCatalog
