import TestCatalog.Text.Basic

/-!
# Paths

A path is kept as it is spelled. What it names is told by its components: repeated slashes and
single dots inside a path do not count, and a backslash is an ordinary character.
-/

namespace TestCatalog

structure Path where
  spelling : Text
deriving DecidableEq

namespace Path

inductive Component where
  | root
  | current
  | parent
  | normal (name : Text)
deriving DecidableEq

namespace Component

/-- Components are ordered as these keys: the root, `.`, `..`, then names. -/
def key : Component → Text
  | root => ['\x00']
  | current => ['\x01']
  | parent => ['\x02']
  | normal name => '\x03' :: name

def name? : Component → Option Text
  | normal name => some name
  | _ => none

end Component

/-- The pieces between slashes that count as components. -/
def componentOfPiece? (piece : Text) : Option Component :=
  if piece = [] ∨ piece = "." then none
  else if piece = ".." then some .parent
  else some (.normal piece)

/-- The components of a path; a dot counts only where a relative path starts with it. -/
def components (path : Path) : List Component :=
  let pieces := path.spelling.splitOn '/'
  let start : List Component :=
    match pieces with
    | [] :: _ :: _ => [.root]
    | first :: _ => if first = "." then [.current] else []
    | [] => []
  start ++ pieces.filterMap componentOfPiece?

/-- Two paths with the same key have the same components; keys order paths by component. -/
def key (path : Path) : List Text :=
  path.components.map Component.key

def isAbsolute (path : Path) : Bool :=
  Text.startsWith "/" path.spelling

def fileName? (path : Path) : Option Text :=
  path.components.getLast?.bind Component.name?

/-- Pieces up to the last one that is a component. -/
def dropIdle (pieces : List Text) : List Text :=
  (pieces.reverse.dropWhile fun piece => piece = [] || piece = ".").reverse

/-- The path as it is spelled before its last component. -/
def parent (path : Path) : Path :=
  ⟨Text.join "/" (dropIdle (dropIdle (path.spelling.splitOn '/')).dropLast)⟩

/-- What follows the last dot of the file name; a dot at the start of the name does not count. -/
def extension? (path : Path) : Option Text :=
  path.fileName?.bind fun name =>
    let tail := name.reverse.takeWhile (· ≠ '.')
    if tail.length + 1 < name.length then some tail.reverse else none

def join (directory relative : Path) : Path :=
  if relative.isAbsolute then relative
  else if directory.spelling = [] ∨ directory.spelling.getLast? = some '/' then
    ⟨directory.spelling ++ relative.spelling⟩
  else ⟨directory.spelling ++ "/" ++ relative.spelling⟩

/-! ## Folder paths -/

/-- Removes the typographic quotes that come with pasted paths. -/
def sanitize (spelling : Text) : Text :=
  spelling.filter fun c => c ∉ ['\u2018', '\u2019', '\u201C', '\u201D']

/-- The last name among the components of a root path. -/
def rootName? (root : Path) : Option Text :=
  (root.components.filterMap Component.name?).getLast?

/-- The names of the file's path from the first one equal to the root's name, joined by slashes. -/
def folderBelow? (root file : Path) : Option Text :=
  root.rootName?.bind fun name =>
    match (file.components.filterMap Component.name?).dropWhile (· ≠ name) with
    | [] => none
    | names => some (Text.join "/" names)

end Path

end TestCatalog
