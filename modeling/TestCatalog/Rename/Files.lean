import TestCatalog.Rename.Inject
import TestCatalog.Source.FileTree

/-!
# Injection into files

The pending renames are written into the source files one after another, each file as a whole. A
file that cannot be read ends the run before the file or the renames change.
-/

namespace TestCatalog

inductive RenameError where
  | unreadable (path : Path) (reason : PathFault)
  | unwritable (path : Path) (reason : PathFault)
deriving DecidableEq

namespace RenameError

def message : RenameError → Text
  | unreadable path reason =>
    "Failed to read '" ++ path.spelling ++ "' for identifier injection: " ++ reason.message
  | unwritable path reason => "Failed to rewrite '" ++ path.spelling ++ "': " ++ reason.message

def code : RenameError → Code
  | unreadable .. => .fileFault
  | unwritable .. => .sourceWriteFailed

end RenameError

/-- The files and the renames that are left, after the renames of some files were written. -/
structure Renaming where
  tree : FileTree
  renames : RenameMap
  changed : List Path := []

namespace Renaming

def written (path : Path) (count : Nat) : Event :=
  (Event.info .identifiersWritten "Identifiers written to source file").withDetails
    [("file", path.spelling), ("injected", Text.ofNat count)]

def unmatched (m : RenameMap) : List Event :=
  m.report?.toList.map fun report =>
    (Event.warning .unmatchedRenames report).withDetail ("pending", Text.ofNat m.size)

def renameInFile (d : Dialect) (path : Path) (r : Renaming) :
    ExceptT RenameError Logged Renaming := do
  if (r.renames.folderOf? path.spelling).isNone then return r
  match r.tree.readText path with
  | .error reason => throw (.unreadable path reason)
  | .ok source =>
    let (text, left) ← d.inject path.spelling source r.renames
    if left = r.renames then return r
    match r.tree.writeText path text with
    | .error reason => throw (.unwritable path reason)
    | .ok tree =>
      Logged.note (written path (r.renames.size - left.size))
      return { tree, renames := left, changed := r.changed ++ [path] }

/-- Writes the pending renames into the files, until none is left. -/
def renameInFiles (d : Dialect) : List Path → Renaming → Logged (Renaming × Option RenameError)
  | [], r => pure (r, none)
  | path :: paths, r =>
    if r.renames.isEmpty then pure (r, none)
    else do
      match ← (renameInFile d path r).run with
      | .ok r => renameInFiles d paths r
      | .error e => return (r, some e)

/-- Writes the pending renames into the files and reports those that found no line. Where a file
cannot be read, what was done before stays done. -/
def run (d : Dialect) (paths : List Path) (tree : FileTree) (m : RenameMap) :
    Logged (Renaming × Option RenameError) := do
  let (r, e) ← renameInFiles d paths { tree, renames := m }
  if e.isNone then
    for event in unmatched r.renames do
      Logged.note event
  return (r, e)

end Renaming

end TestCatalog
