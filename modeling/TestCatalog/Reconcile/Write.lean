import TestCatalog.Reconcile.Report
import TestCatalog.Source.FileTree

/-!
# Written reports

A reconciliation report is written to a file as a whole or not at all.
-/

namespace TestCatalog

inductive ReportError where
  | unwritable (path : Path) (reason : PathFault)
deriving DecidableEq

namespace ReportError

def message : ReportError → Text
  | unwritable path reason =>
    "Failed to write reconciliation report '" ++ path.spelling ++ "': " ++ reason.message

def code (_ : ReportError) : Code :=
  .reportWriteFailed

end ReportError

namespace Reconciliation

def reportWritten (path : Path) (report : Text) : Event :=
  (Event.info .reportWritten "Reconciliation report written").withDetails
    [("path", path.spelling), ("bytes", Text.ofNat (Text.utf8Size report))]

/-- Writes the report to a path and gives the new files. -/
def write (r : Reconciliation) (tree : FileTree) (path : Path) :
    ExceptT ReportError Logged FileTree :=
  match tree.writeText path r.render with
  | .ok tree => do
    Logged.note (reportWritten path r.render)
    return tree
  | .error reason => do
    let e := ReportError.unwritable path reason
    Logged.note (.error e.code e.message)
    throw e

end Reconciliation

end TestCatalog
