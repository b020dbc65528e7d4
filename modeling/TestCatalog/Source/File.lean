import TestCatalog.Config.Preferences
import TestCatalog.Decimal
import TestCatalog.Diagnostics.Journal
import TestCatalog.Dialect.Basic
import TestCatalog.Source.FileTree
import TestCatalog.Text.Quoted

/-!
# Source files

A source file is read whole, within limits on its size and its number of lines. Every rejection is
reported with the file it is about.
-/

namespace TestCatalog

inductive FileError where
  | notFound (path : Path)
  | invalidExtension (expected : Text) (found : Option Text)
  | tooLarge (size : Nat)
  | empty (path : Path)
  | invalidEncoding (path : Path)
  | fault (path : Path) (reason : PathFault)
  /-- The path is empty or names no file. -/
  | invalidPath (path : Path)
  | tooManyLines (lines : Nat)
deriving DecidableEq

namespace FileError

def showOption : Option Text → Text
  | some t => "Some(" ++ Text.quote t ++ ")"
  | none => "None"

def message : FileError → Text
  | notFound path => "File not found: " ++ path.spelling
  | invalidExtension expected found =>
    "Invalid file extension: expected ." ++ expected ++ ", found " ++ showOption found
  | tooLarge size =>
    "File too large: " ++ Text.ofNat size ++ " bytes (max: " ++ Text.ofNat Limits.maxFileSize ++ ")"
  | empty path => "File is empty: " ++ path.spelling
  | invalidEncoding path => "Invalid UTF-8 encoding in file: " ++ path.spelling
  | fault path reason => "I/O error on '" ++ path.spelling ++ "': " ++ reason.message
  | invalidPath path => "Invalid file path: " ++ path.spelling
  | tooManyLines lines =>
    "File exceeds maximum line count: " ++ Text.ofNat lines ++ " (max: " ++
      Text.ofNat Limits.maxLines ++ ")"

def code : FileError → Code
  | notFound _ => .fileNotFound
  | invalidExtension .. => .invalidExtension
  | tooLarge _ => .fileTooLarge
  | empty _ => .emptyFile
  | invalidEncoding _ => .invalidEncoding
  | fault .. => .fileFault
  | invalidPath _ => .invalidPath
  | tooManyLines _ => .tooManyLines

def ofFault (path : Path) : PathFault → FileError
  | .notFound => notFound path
  | .notUtf8 => invalidEncoding path
  | .isDirectory => invalidPath path
  | reason => fault path reason

end FileError

/-- A file's text and what is known about it. -/
structure SourceFile where
  path : Path
  /-- In bytes. -/
  size : Nat
  /-- In lower case. -/
  extension : Option Text
  lineCount : Nat
  source : Text

namespace SourceFile

def isLargeSize (size : Nat) : Bool :=
  Limits.largeFileThreshold < size

def isLarge (f : SourceFile) : Bool :=
  isLargeSize f.size

def isBlank (f : SourceFile) : Bool :=
  f.source.all Text.isBlank

end SourceFile

structure FileReader where
  expectedExtension : Option Text := none
  requireExtension : Bool := false
  reportReads : Bool := true

namespace FileReader

def ofPreferences (prefs : FilePreferences) (d : Dialect) : FileReader where
  expectedExtension := some d.extension
  requireExtension := prefs.requireExtension
  reportReads := prefs.reportReads

def inspect (tree : FileTree) (path : Path) : Except FileError Content :=
  if path.spelling = [] then .error (.invalidPath path)
  else
    match tree.find path with
    | .error reason => .error (.ofFault path reason)
    | .ok (.folder _) => .error (.invalidPath path)
    | .ok (.file content) => .ok content

def extension? (path : Path) : Option Text :=
  path.extension?.map Text.lowercase

def validate (r : FileReader) (path : Path) (size : Nat) : Except FileError Unit :=
  if Limits.maxFileSize < size then .error (.tooLarge size)
  else if size = 0 then .error (.empty path)
  else
    match r.requireExtension, r.expectedExtension with
    | true, some expected =>
      if extension? path = some expected then .ok ()
      else .error (.invalidExtension expected (extension? path))
    | _, _ => .ok ()

def rejected (message : Text) (path : Path) (e : FileError) : Event :=
  (Event.error e.code message).withDetails [("file", path.spelling), ("error", e.message)]

def tooLong (path : Path) (lines : Nat) : Event :=
  (Event.error .tooManyLines "File exceeds maximum line count").withDetails
    [("file", path.spelling), ("lines", Text.ofNat lines),
      ("max_lines", Text.ofNat Limits.maxLines)]

def started (path : Path) : Event :=
  (Event.debug "Starting file processing").withDetail ("file", path.spelling)

def completed (f : SourceFile) : Event :=
  (Event.info .fileRead "File read").withDetails
    [("file", f.path.spelling), ("size", humanSize f.size), ("lines", Text.ofNat f.lineCount),
      ("large_file", Text.ofBool f.isLarge)]

/-- Takes the result of a check and reports its error under a message. -/
def checked {α : Type} (message : Text) (path : Path) (result : Except FileError α) :
    ExceptT FileError Logged α :=
  match result with
  | .ok a => pure a
  | .error e => do
    Logged.note (rejected message path e)
    throw e

theorem value_checked {α : Type} (message : Text) (path : Path) (result : Except FileError α) :
    (checked message path result).run.value = result := by
  cases result <;> rfl

def read (r : FileReader) (tree : FileTree) (path : Path) :
    ExceptT FileError Logged SourceFile := do
  Logged.note (started path)
  let content ← checked "Failed to inspect file" path (inspect tree path)
  let size := content.size
  checked "File rejected" path (r.validate path size)
  let source ← checked "Failed to read file" path
    (match content.text? with
      | some t => .ok t
      | none => .error (.invalidEncoding path))
  let lineCount := (Text.lines source).length
  if Limits.maxLines < lineCount then
    Logged.note (tooLong path lineCount)
    throw (.tooManyLines lineCount)
  let file : SourceFile := { path, size, extension := extension? path, lineCount, source }
  if r.reportReads then Logged.note (completed file)
  return file

end FileReader

end TestCatalog
