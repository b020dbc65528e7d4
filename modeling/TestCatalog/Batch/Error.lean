import TestCatalog.Diagnostics.Code
import TestCatalog.Limits
import TestCatalog.Source.FileTree

/-!
# Batch errors

Why a batch as a whole gives no result.
-/

namespace TestCatalog

inductive BatchError where
  | directoryNotFound (path : Path)
  | noFilesFound (path : Path) (extension : Text)
  | tooManyFiles (count : Nat)
  | tooManyCases (found : Nat)
  | traversal (path : Path) (reason : PathFault)
deriving DecidableEq

namespace BatchError

def message : BatchError → Text
  | directoryNotFound path => "Directory not found: " ++ path.spelling
  | noFilesFound path extension =>
    "No ." ++ extension ++ " files found in directory: " ++ path.spelling
  | tooManyFiles count =>
    "Too many files found: " ++ Text.ofNat count ++ " (max: " ++ Text.ofNat Limits.maxFiles ++ ")"
  | tooManyCases _ =>
    "Attempting to add/update more than " ++ Text.ofNat Limits.maxCases ++
      " test cases at once, please limit the scope to less test cases"
  | traversal path reason =>
    "IO error during directory traversal: IO error for operation on " ++ path.spelling ++ ": " ++
      reason.message

def code : BatchError → Code
  | directoryNotFound _ => .directoryNotFound
  | noFilesFound .. => .noFilesFound
  | tooManyFiles _ => .tooManyFiles
  | tooManyCases _ => .tooManyCases
  | traversal .. => .traversalFailed

end BatchError

end TestCatalog
