import TestCatalog.SortedMap
import TestCatalog.Text.Utf8

/-!
# Pending renames

When identifiers are issued, the cases that get them are renamed in their sources. The pending
renames are kept by folder path, and a source file belongs to the longest folder path that its own
path contains.
-/

namespace TestCatalog

/-- The new names by folder path and old name. -/
structure RenameMap where
  folders : SortedMap Text (SortedMap Text Text) := {}
deriving DecidableEq

namespace RenameMap

/-- Adds a rename; an earlier one of the same name in the same folder is replaced. -/
def insert (m : RenameMap) (folder old new : Text) : RenameMap :=
  let names := (m.folders.get? folder).getD {}
  ⟨m.folders.insert folder (names.insert old new)⟩

def isEmpty (m : RenameMap) : Bool :=
  m.folders.isEmpty

def get? (m : RenameMap) (folder old : Text) : Option Text :=
  (m.folders.get? folder).bind fun names => names.get? old

/-- The longer of two folder paths, the second one if they are equally long. -/
def longer (best : Option Text) (folder : Text) : Option Text :=
  match best with
  | some b => if Text.utf8Size folder < Text.utf8Size b then some b else some folder
  | none => some folder

/-- The longest folder path that the file's path contains; the last of the longest ones. -/
def folderOf? (m : RenameMap) (filePath : Text) : Option Text :=
  (m.folders.keys.filter fun folder => Text.contains folder filePath).foldl longer none

/-- Removes a rename, and with its last rename the folder. -/
def erase (m : RenameMap) (folder old : Text) : RenameMap :=
  match m.folders.get? folder with
  | none => m
  | some names =>
    let left := names.erase old
    if left.isEmpty then ⟨m.folders.erase folder⟩ else ⟨m.folders.insert folder left⟩

/-- The pending renames as folder path, old name and new name, in that order. -/
def toList (m : RenameMap) : List (Text × Text × Text) :=
  m.folders.entries.flatMap fun (folder, names) =>
    names.entries.map fun (old, new) => (folder, old, new)

def size (m : RenameMap) : Nat :=
  m.toList.length

/-! ## Report -/

def renderRename (old new : Text) : Text :=
  "    " ++ old ++ "  : " ++ new ++ "\n"

def renderFolder (folder : Text) (names : SortedMap Text Text) : Text :=
  "\n" ++ folder ++ "\n" ++ names.entries.flatMap fun (old, new) => renderRename old new

def report? (m : RenameMap) : Option Text :=
  if m.isEmpty then none
  else
    some ("THE FOLLOWING TEST CASES WERE NOT FOUND OR UPDATED IN THE TEST FILE(S):\n" ++
      m.folders.entries.flatMap fun (folder, names) => renderFolder folder names)

end RenameMap

end TestCatalog
