import TestCatalog.Diagnostics.Journal
import TestCatalog.Dialect.Name
import TestCatalog.Rename.Map

/-!
# Injected identifiers

The pending renames of a folder are written into a source text: the first line that declares an old
name takes the new one, and the rename is done.
-/

namespace TestCatalog

structure Injection where
  /-- The lines so far, last first. -/
  lines : List Text := []
  renames : RenameMap
  /-- The reports so far, last first. -/
  reports : Journal := []

namespace Injection

def injected (folder old new : Text) : Event :=
  (Event.debug "Identifier injected").withDetails [("path", folder), ("old", old), ("new", new)]

/-- A line without the characters that end it. -/
def content (line : Text) : Text :=
  Text.dropEndWhile (fun c => c = '\n' || c = '\r') line

/-- The rename that waits for the name declared on the line: the old name and the new one. -/
def pendingOnLine? (d : Dialect) (folder line : Text) (m : RenameMap) : Option (Text × Text) := do
  let old ← d.nameOnLine? (content line)
  let new ← m.get? folder old
  return (old, new)

def step (d : Dialect) (folder : Text) (state : Injection) (line : Text) : Injection :=
  match pendingOnLine? d folder line state.renames with
  | some (old, new) =>
    { lines := Text.replaceAll old new line :: state.lines
      renames := state.renames.erase folder old
      reports := .report (injected folder old new) :: state.reports }
  | none => { state with lines := line :: state.lines }

end Injection

namespace Dialect

/-- Writes the renames that are pending for the file into its text, and what is left of them. -/
def inject (d : Dialect) (filePath source : Text) (m : RenameMap) : Logged (Text × RenameMap) :=
  match m.folderOf? filePath with
  | none => pure (source, m)
  | some folder =>
    let done := (Text.linesInclusive source).foldl (Injection.step d folder) { renames := m }
    { value := (done.lines.reverse.flatten, done.renames), journal := done.reports.reverse }

end Dialect

end TestCatalog
