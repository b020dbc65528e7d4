import TestCatalog.Batch.Error
import TestCatalog.Diagnostics.Journal
import TestCatalog.Dialect.Basic
import TestCatalog.Source.FileTree

/-!
# Discovery

The source files of a dialect below a directory, in the order of the walk. A cap ends the walk with
a warning; more files than a batch may hold are an error.
-/

namespace TestCatalog

namespace Discovery

structure Search where
  directory : Path
  dialect : Dialect
  recursive : Bool := true
  /-- The walk ends when this many files are found. -/
  cap : Option Nat := none

def started (s : Search) : Event :=
  (Event.info .info "Starting file discovery").withDetails
    [("directory", s.directory.spelling), ("extension", s.dialect.extension),
      ("recursive", Text.ofBool s.recursive)]

def capReached (found : Nat) : Event :=
  (Event.warning .fileLimitReached "Reached maximum file limit").withDetail
    ("files_found", Text.ofNat found)

def completed (s : Search) (found : Nat) : Event :=
  (Event.info .discoveryCompleted "File discovery completed").withDetails
    [("files_found", Text.ofNat found), ("directory", s.directory.spelling)]

def overfull (s : Search) (e : BatchError) : Event :=
  (Event.error e.code e.message).withDetail ("directory", s.directory.spelling)

/-- Goes through the visits with the files that were found so far. A file is taken in before the
limit of a batch is looked at, and the cap comes after the limit. -/
def walk (s : Search) (files : Array Path) :
    List FileTree.Visit → ExceptT BatchError Logged (Array Path)
  | [] => return files
  | .closed path :: _ => throw (.traversal path .nameTooLong)
  | .folder _ :: visits => walk s files visits
  | .file path :: visits =>
    if s.dialect.matchesPath path then do
      let files := files.push path
      if Limits.maxFiles < files.size then
        let e := BatchError.tooManyFiles files.size
        Logged.note (overfull s e)
        throw e
      else if s.cap.any (· ≤ files.size) then
        Logged.note (capReached files.size)
        return files
      else walk s files visits
    else walk s files visits

def accept (s : Search) (files : List Path) : ExceptT BatchError Logged (List Path) :=
  if files = [] then throw (.noFilesFound s.directory s.dialect.extension)
  else do
    Logged.note (completed s files.length)
    return files

def run (s : Search) (root : FileTree) : ExceptT BatchError Logged (List Path) := do
  Logged.note (started s)
  match root.find s.directory with
  | .ok (.folder entries) =>
    let files ← walk s #[] (FileTree.visits s.recursive s.directory entries)
    accept s files.toList
  | _ =>
    let e := BatchError.directoryNotFound s.directory
    Logged.note (.error e.code e.message)
    throw e

end Discovery

end TestCatalog
