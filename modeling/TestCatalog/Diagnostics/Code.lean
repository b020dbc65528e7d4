import TestCatalog.Text.Basic

/-!
# Codes

Every finding carries a code. The registry classifies the codes of errors and warnings; a code
outside it counts as recoverable and of medium severity.
-/

namespace TestCatalog

structure Code where
  id : Text
deriving DecidableEq

inductive Severity where
  | critical
  | high
  | medium
  | low
deriving DecidableEq

def Severity.rank : Severity → Nat
  | critical => 0
  | high => 1
  | medium => 2
  | low => 3

def Severity.label : Severity → Text
  | critical => "Critical"
  | high => "High"
  | medium => "Medium"
  | low => "Low"

/-- What the registry says of a code. -/
structure Classification where
  code : Code
  category : Text
  severity : Severity
  recoverable : Bool
  halts : Bool
  description : Text
  action : Text

namespace Code

/-! ## Library -/

def internalError : Code := ⟨"ERR001"⟩

/-! ## Configuration -/

def invalidSyncConfig : Code := ⟨"E001"⟩

/-! ## Source files -/

def fileNotFound : Code := ⟨"E005"⟩
def invalidExtension : Code := ⟨"E006"⟩
def fileTooLarge : Code := ⟨"E007"⟩
def emptyFile : Code := ⟨"E008"⟩
def invalidEncoding : Code := ⟨"E010"⟩
def fileFault : Code := ⟨"E011"⟩
def invalidPath : Code := ⟨"E012"⟩
def tooManyLines : Code := ⟨"E013"⟩
def rootFolderNotFound : Code := ⟨"E014"⟩

/-! ## Documentation -/

def missingSectionHeader : Code := ⟨"E040"⟩
def malformedSectionLine : Code := ⟨"E041"⟩
def unterminatedTable : Code := ⟨"E042"⟩
def emptyTable : Code := ⟨"E043"⟩
def unevenTable : Code := ⟨"E044"⟩
def stepNumbering : Code := ⟨"E045"⟩
def stepLabel : Code := ⟨"E046"⟩
def missingProjectsLine : Code := ⟨"E047"⟩
def unknownProject : Code := ⟨"E048"⟩
def emptyProjectScope : Code := ⟨"E049"⟩
def docStringStart : Code := ⟨"E050"⟩
def missingDocumentationMarker : Code := ⟨"E051"⟩
def multipleSectionMarkers : Code := ⟨"E052"⟩
def invalidCase : Code := ⟨"E054"⟩

/-! ## Batches -/

def directoryNotFound : Code := ⟨"E070"⟩
def noFilesFound : Code := ⟨"E071"⟩
def tooManyFiles : Code := ⟨"E072"⟩
def tooManyCases : Code := ⟨"E073"⟩
def traversalFailed : Code := ⟨"E075"⟩

/-! ## Identifiers -/

def sourceWriteFailed : Code := ⟨"E080"⟩
def invalidExecutedNames : Code := ⟨"E081"⟩
def reportWriteFailed : Code := ⟨"E082"⟩
def unsupportedFramework : Code := ⟨"E083"⟩

/-! ## Backend -/

def conflict : Code := ⟨"E100"⟩
def unauthorized : Code := ⟨"E101"⟩
def notFound : Code := ⟨"E102"⟩
def rateLimited : Code := ⟨"E103"⟩
def clientError : Code := ⟨"E104"⟩
def serverError : Code := ⟨"E105"⟩

/-! ## Warnings -/

def warning : Code := ⟨"W000"⟩
def onlyDefaultProject : Code := ⟨"W001"⟩
def unmatchedRenames : Code := ⟨"W002"⟩
def fileLimitReached : Code := ⟨"W003"⟩
def eventLimitReached : Code := ⟨"W004"⟩
def manySteps : Code := ⟨"W005"⟩

/-! ## Progress -/

def info : Code := ⟨"I000"⟩
def debug : Code := ⟨"D000"⟩
def completed : Code := ⟨"I001"⟩
def fileRead : Code := ⟨"I006"⟩
def discoveryCompleted : Code := ⟨"I007"⟩
def caseAssembled : Code := ⟨"I040"⟩
def blockAssembled : Code := ⟨"I041"⟩
def reconciled : Code := ⟨"I060"⟩
def reportWritten : Code := ⟨"I061"⟩
def identifiersWritten : Code := ⟨"I070"⟩
def resultsPushed : Code := ⟨"I080"⟩

/-! ## Registry -/

def registry : List Classification := [
  { code := ⟨"ERR001"⟩, category := "System", severity := .critical
    recoverable := false, halts := true
    description := "Critical internal error"
    action := "File a bug report with the failing input" },
  { code := ⟨"ERR002"⟩, category := "System", severity := .critical
    recoverable := false, halts := true
    description := "Logging or configuration initialization failure"
    action := "Check the build profile and runtime environment variables" },
  { code := ⟨"E001"⟩, category := "Configuration", severity := .high
    recoverable := false, halts := true
    description := "Sync configuration is missing or invalid"
    action := "Fix default_project and project_list in the sync configuration" },
  { code := ⟨"E005"⟩, category := "FileProcessing", severity := .medium
    recoverable := false, halts := true
    description := "Source file not found"
    action := "Check the path and that the file exists" },
  { code := ⟨"E006"⟩, category := "FileProcessing", severity := .low
    recoverable := true, halts := false
    description := "File extension does not match the dialect"
    action := "Use the dialect's file extension or disable the extension check" },
  { code := ⟨"E007"⟩, category := "FileProcessing", severity := .high
    recoverable := false, halts := true
    description := "File exceeds the compile-time size limit"
    action := "Split the file or raise max_file_size in the build profile" },
  { code := ⟨"E008"⟩, category := "FileProcessing", severity := .low
    recoverable := true, halts := false
    description := "File is empty"
    action := "Add test cases to the file or exclude it" },
  { code := ⟨"E009"⟩, category := "FileProcessing", severity := .high
    recoverable := false, halts := true
    description := "Permission denied reading file"
    action := "Check file permissions" },
  { code := ⟨"E010"⟩, category := "FileProcessing", severity := .medium
    recoverable := false, halts := true
    description := "File is not valid UTF-8"
    action := "Re-save the file as UTF-8" },
  { code := ⟨"E011"⟩, category := "FileProcessing", severity := .medium
    recoverable := false, halts := true
    description := "I/O error while reading file"
    action := "Retry and check the file system" },
  { code := ⟨"E012"⟩, category := "FileProcessing", severity := .medium
    recoverable := false, halts := true
    description := "Path is empty or not a file"
    action := "Pass a path to a regular file" },
  { code := ⟨"E013"⟩, category := "FileProcessing", severity := .high
    recoverable := false, halts := true
    description := "File exceeds the compile-time line limit"
    action := "Split the file or raise max_line_count in the build profile" },
  { code := ⟨"E014"⟩, category := "FileProcessing", severity := .medium
    recoverable := false, halts := true
    description := "Configured root folder is not part of the file path"
    action := "Run from inside the configured root or fix root_path" },
  { code := ⟨"E040"⟩, category := "Grammar", severity := .medium
    recoverable := false, halts := true
    description := "Expected section header is missing"
    action := "Check section order: Description, Prerequisites, Test Data, Steps" },
  { code := ⟨"E041"⟩, category := "Grammar", severity := .medium
    recoverable := false, halts := true
    description := "Section line does not start with a number, dash or table marker"
    action := "Prefix the line with the next number, a dash, or *begin table*" },
  { code := ⟨"E042"⟩, category := "Grammar", severity := .medium
    recoverable := false, halts := true
    description := "Table is missing its *end table* marker"
    action := "Close the table with *end table* before the blank line" },
  { code := ⟨"E043"⟩, category := "Grammar", severity := .medium
    recoverable := false, halts := true
    description := "Table has no rows"
    action := "Add rows between *begin table* and *end table*" },
  { code := ⟨"E044"⟩, category := "Grammar", severity := .medium
    recoverable := false, halts := true
    description := "Table row has a different column count than the first row"
    action := "Make every row use the same number of '|' separators" },
  { code := ⟨"E045"⟩, category := "Grammar", severity := .medium
    recoverable := false, halts := true
    description := "Step numbering is out of sequence"
    action := "Number steps consecutively starting at 1)" },
  { code := ⟨"E046"⟩, category := "Grammar", severity := .medium
    recoverable := false, halts := true
    description := "Step is missing its ER: or Notes: line"
    action := "Follow each numbered step with ER: and Notes: lines" },
  { code := ⟨"E047"⟩, category := "Grammar", severity := .medium
    recoverable := false, halts := true
    description := "Projects line is missing after the steps"
    action := "Add a Projects: line directly after the last step" },
  { code := ⟨"E048"⟩, category := "Grammar", severity := .medium
    recoverable := false, halts := true
    description := "Projects line names a project outside the allow-list"
    action := "Use a project from project_list in the sync configuration" },
  { code := ⟨"E049"⟩, category := "Grammar", severity := .medium
    recoverable := false, halts := true
    description := "Projects line is empty or NA"
    action := "List at least one project" },
  { code := ⟨"E050"⟩, category := "Grammar", severity := .medium
    recoverable := false, halts := true
    description := "Doc-string does not start right after the case header"
    action := "Open the doc-string on the line after the case header" },
  { code := ⟨"E051"⟩, category := "Grammar", severity := .medium
    recoverable := false, halts := true
    description := "[Documentation] marker is missing after the case name"
    action := "Put [Documentation] on the line after the case name" },
  { code := ⟨"E052"⟩, category := "Grammar", severity := .medium
    recoverable := false, halts := true
    description := "File has more than one test case section"
    action := "Remove duplicate or commented-out test case section headers" },
  { code := ⟨"E054"⟩, category := "Grammar", severity := .medium
    recoverable := false, halts := true
    description := "Assembled test case violates model invariants"
    action := "Give the case a name, at least one step and an allowed project" },
  { code := ⟨"E070"⟩, category := "Batch", severity := .high
    recoverable := false, halts := true
    description := "Directory not found"
    action := "Check the directory path" },
  { code := ⟨"E071"⟩, category := "Batch", severity := .low
    recoverable := true, halts := false
    description := "No files with the dialect extension were found"
    action := "Check the directory and dialect" },
  { code := ⟨"E072"⟩, category := "Batch", severity := .high
    recoverable := false, halts := true
    description := "Too many files discovered"
    action := "Narrow the directory or raise max_files_per_batch" },
  { code := ⟨"E073"⟩, category := "Batch", severity := .high
    recoverable := false, halts := true
    description := "Too many test cases selected for one run"
    action := "Limit the scope to fewer test cases" },
  { code := ⟨"E074"⟩, category := "Batch", severity := .critical
    recoverable := false, halts := true
    description := "Worker thread failed"
    action := "Re-run sequentially and file a bug report" },
  { code := ⟨"E075"⟩, category := "Batch", severity := .medium
    recoverable := false, halts := true
    description := "Directory traversal failed"
    action := "Check directory permissions" },
  { code := ⟨"E080"⟩, category := "Identifiers", severity := .high
    recoverable := false, halts := true
    description := "Failed to rewrite a file with assigned identifiers"
    action := "Check write permissions; the original file is unchanged" },
  { code := ⟨"E081"⟩, category := "Identifiers", severity := .medium
    recoverable := false, halts := true
    description := "Executed test names do not carry a global identifier"
    action := "Rename executed tests with their global identifier prefix" },
  { code := ⟨"E082"⟩, category := "Identifiers", severity := .medium
    recoverable := false, halts := true
    description := "Failed to write the reconciliation report"
    action := "Check the report destination" },
  { code := ⟨"E083"⟩, category := "Identifiers", severity := .medium
    recoverable := false, halts := true
    description := "Execution results come from an unsupported framework"
    action := "Use pytest or robot result names" },
  { code := ⟨"E100"⟩, category := "Backend", severity := .medium
    recoverable := true, halts := false
    description := "Backend reported a conflict"
    action := "The item already exists; refresh and retry" },
  { code := ⟨"E101"⟩, category := "Backend", severity := .high
    recoverable := false, halts := true
    description := "Backend rejected the credentials"
    action := "Check the backend credentials" },
  { code := ⟨"E102"⟩, category := "Backend", severity := .medium
    recoverable := true, halts := false
    description := "Backend item not found"
    action := "Check the identifier and project" },
  { code := ⟨"E103"⟩, category := "Backend", severity := .medium
    recoverable := true, halts := false
    description := "Backend rate limit reached"
    action := "Wait before retrying" },
  { code := ⟨"E104"⟩, category := "Backend", severity := .medium
    recoverable := false, halts := true
    description := "Backend rejected the request"
    action := "Check the request payload" },
  { code := ⟨"E105"⟩, category := "Backend", severity := .high
    recoverable := true, halts := false
    description := "Backend server error"
    action := "Retry later" },
  { code := ⟨"W001"⟩, category := "Assembly", severity := .low
    recoverable := true, halts := false
    description := "Only the default project was listed"
    action := "List the team projects the case belongs to" },
  { code := ⟨"W002"⟩, category := "Identifiers", severity := .low
    recoverable := true, halts := false
    description := "Some renames were not applied"
    action := "Check that the listed cases still exist in their files" },
  { code := ⟨"W003"⟩, category := "Batch", severity := .low
    recoverable := true, halts := false
    description := "File discovery stopped at the configured limit"
    action := "Raise max_files_per_batch or narrow the directory" },
  { code := ⟨"W004"⟩, category := "Logging", severity := .low
    recoverable := true, halts := false
    description := "Per-file event limit reached"
    action := "Fix the earliest errors first" },
  { code := ⟨"W005"⟩, category := "Assembly", severity := .low
    recoverable := true, halts := false
    description := "Test case has more steps than the configured limit"
    action := "Consider splitting the test case" }]

def classification? (code : Code) : Option Classification :=
  registry.find? fun entry => entry.code = code

def category (code : Code) : Text :=
  (code.classification?.map (·.category)).getD "Unknown"

def severity (code : Code) : Severity :=
  (code.classification?.map (·.severity)).getD .medium

/-- Whether a run may go on without what the finding is about. -/
def isRecoverable (code : Code) : Bool :=
  (code.classification?.map (·.recoverable)).getD true

def requiresHalt (code : Code) : Bool :=
  (code.classification?.map (·.halts)).getD false

def description (code : Code) : Text :=
  (code.classification?.map (·.description)).getD "Unknown error"

/-- What the author should do about the finding. -/
def action (code : Code) : Text :=
  (code.classification?.map (·.action)).getD "No specific action available"

end Code

end TestCatalog
