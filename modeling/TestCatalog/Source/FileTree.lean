import TestCatalog.Path
import TestCatalog.SortedMap
import TestCatalog.Text.Utf8

/-!
# File trees

The files that a run works on are a value: a tree of folders from the root of the file system on. A
path is followed name by name, from the root or from the working folder, and replacing a file gives
a new tree.
-/

namespace TestCatalog

/-- What a file holds: a text, or bytes that are no UTF-8. -/
inductive Content where
  | text (t : Text)
  | bytes (raw : List UInt8)
deriving DecidableEq

namespace Content

def ofBytes (raw : List UInt8) : Content :=
  match Text.ofUtf8? raw with
  | some t => .text t
  | none => .bytes raw

def size : Content → Nat
  | text t => Text.utf8Size t
  | bytes raw => raw.length

def text? : Content → Option Text
  | text t => some t
  | bytes _ => none

end Content

/-- A file, or a folder with its entries in the order of their names. -/
inductive FileTree where
  | file (content : Content)
  | folder (entries : List (Text × FileTree))

inductive PathFault where
  | notFound
  | notDirectory
  | isDirectory
  | nameTooLong
  | nulByte
  | notUtf8
  | busy
  | invalidName
deriving DecidableEq

def PathFault.message : PathFault → Text
  | notFound => "No such file or directory (os error 2)"
  | notDirectory => "Not a directory (os error 20)"
  | isDirectory => "Is a directory (os error 21)"
  | nameTooLong => "File name too long (os error 36)"
  | nulByte => "file name contained an unexpected NUL byte"
  | notUtf8 => "stream did not contain valid UTF-8"
  | busy => "Device or resource busy (os error 16)"
  | invalidName => "Invalid argument (os error 22)"

namespace FileTree

instance : Inhabited FileTree := ⟨.folder []⟩

def entries : FileTree → List (Text × FileTree)
  | file _ => []
  | folder entries => entries

def entry? (t : FileTree) (name : Text) : Option FileTree :=
  (t.entries.find? fun entry => entry.1 = name).map Prod.snd

/-! ## Locations -/

/-- What stands at a location, which lists the names from the root on. -/
def at? : FileTree → List Text → Option FileTree
  | t, [] => some t
  | t, name :: names => (t.entry? name).bind fun t => at? t names

/-- Puts a tree at a location, with the folders that lead there. -/
def put (new : FileTree) : FileTree → List Text → FileTree
  | _, [] => new
  | t, name :: names =>
    .folder
      (SortedMap.insertEntry name (put new ((t.entry? name).getD (.folder [])) names) t.entries)

/-- Where the working folder stands. No path can spell its name, so that only dots lead there from
outside. -/
def home : List Text := ["tmp", "/"]

/-- The tree with nothing in it but the working folder. -/
def empty : FileTree :=
  put (.folder []) (.folder []) home

/-- Where the following of a path starts. -/
def start (path : Path) : List Text :=
  if path.isAbsolute then [] else home

def maxPathBytes : Nat := 4095

def maxNameBytes : Nat := 255

/-- Follows the pieces of a path from the location `here`; nothing stands above the root. -/
def follow (root : FileTree) (here : List Text) : List Text → Except PathFault (List Text)
  | [] => .ok here
  | piece :: pieces =>
    match root.at? here with
    | some (.folder entries) =>
      if piece = [] ∨ piece = "." then follow root here pieces
      else if piece = ".." then follow root here.dropLast pieces
      else if maxNameBytes < Text.utf8Size piece then .error .nameTooLong
      else if entries.any fun entry => entry.1 = piece then follow root (here ++ [piece]) pieces
      else .error .notFound
    | some (.file _) => .error .notDirectory
    | none => .error .notFound

/-- What is wrong with a path, whatever the tree holds. -/
def checkSpelling (path : Path) : Except PathFault Unit :=
  if '\x00' ∈ path.spelling then .error .nulByte
  else if path.spelling = [] then .error .notFound
  else if maxPathBytes < Text.utf8Size path.spelling then .error .nameTooLong
  else .ok ()

def locate (root : FileTree) (path : Path) : Except PathFault (List Text) := do
  checkSpelling path
  follow root (start path) (path.spelling.splitOn '/')

def find (root : FileTree) (path : Path) : Except PathFault FileTree := do
  match root.at? (← root.locate path) with
  | some t => return t
  | none => throw .notFound

/-! ## Reading and writing texts -/

def readText (root : FileTree) (path : Path) : Except PathFault Text := do
  match ← root.find path with
  | .folder _ => throw .isDirectory
  | .file content =>
    match content.text? with
    | some t => return t
    | none => throw .notUtf8

/-- The folder that pieces lead to from the location `here`, with its entries. -/
def folderAlong (root : FileTree) (here : List Text) (pieces : List Text) :
    Except PathFault (List Text × List (Text × FileTree)) := do
  let here ← root.follow here pieces
  match root.at? here with
  | some (.folder entries) => return (here, entries)
  | _ => throw .notDirectory

/-- Puts a file at a path, in one step, in place of the file that may be there; its folder must be
there. A folder that the path reaches by dots or slashes alone is in use. -/
def write (root : FileTree) (path : Path) (content : Content) : Except PathFault FileTree := do
  if '\x00' ∈ path.spelling then throw .invalidName
  if path.spelling = [] then throw .notFound
  if maxPathBytes < Text.utf8Size path.spelling then throw .nameTooLong
  let pieces := path.spelling.splitOn '/'
  let names := (pieces.reverse.dropWhile (· = [])).reverse
  let name := names.getLast?.getD "."
  let (here, entries) ← root.folderAlong (start path) names.dropLast
  if name = "." ∨ name = ".." then throw .busy
  if maxNameBytes < Text.utf8Size name then throw .nameTooLong
  if names.length < pieces.length then throw .notDirectory
  match entries.find? fun entry => entry.1 = name with
  | some (_, .folder _) => throw .isDirectory
  | _ => return put (.file content) root (here ++ [name])

/-- The bytes of the path of the working folder. -/
def homeBytes : Nat := 15

/-- Whether a text for a path can be drafted in the folder that is spelled before its last name. The
path of the draft starts at the root, and its name has ten bytes. -/
def canDraft (path : Path) : Bool :=
  let lead := if path.isAbsolute then 0 else homeBytes + 1
  lead + Text.utf8Size path.parent.spelling + 1 + 10 ≤ maxPathBytes

/-- Puts a file with the text at a path. The text is drafted in the same folder first, so that the
file is there as a whole or as it was before. -/
def writeText (root : FileTree) (path : Path) (t : Text) : Except PathFault FileTree :=
  if canDraft path then root.write path (.text t) else .error .nameTooLong

/-! ## Laying out -/

/-- Makes the folders that the components pass through from `here` on, as far as nothing is in the
way. -/
def makeFolders (root : FileTree) (here : List Text) : List Path.Component → FileTree
  | [] => root
  | .normal name :: rest =>
    let next := here ++ [name]
    match root.at? next with
    | some (.folder _) => makeFolders root next rest
    | some (.file _) => root
    | none =>
      if maxNameBytes < Text.utf8Size name then root
      else makeFolders (put (.folder []) root next) next rest
  | .parent :: rest => makeFolders root here.dropLast rest
  | .current :: rest => makeFolders root here rest
  | .root :: rest => makeFolders root here rest

/-- Whether folders can be made along a path at all. -/
def canLead (path : Path) : Bool :=
  '\x00' ∉ path.spelling && Text.utf8Size path.spelling ≤ maxPathBytes

/-- Makes the folder at a path and those that lead to it, as far as possible. A dot at the end names
a folder that must be there. -/
def addFolder (root : FileTree) (path : Path) : FileTree :=
  if canLead path then
    let pieces := path.spelling.splitOn '/'
    let names := (pieces.reverse.dropWhile (· = [])).reverse
    let components := path.components
    root.makeFolders (start path)
      (if names.getLast? = some "." then components.dropLast else components)
  else root

/-- Puts a file at a path after the folders that lead to it; nothing is put where a folder stands or
a file is in the way. -/
def addFile (root : FileTree) (path : Path) (content : Content) : FileTree :=
  let root :=
    if canLead path.parent then root.makeFolders (start path) path.components.dropLast else root
  match root.write path content with
  | .ok root => root
  | .error _ => root

/-- Puts empty files into the folder at a path; their names come in increasing order. -/
def addEmptyFiles (root : FileTree) (path : Path) (names : List Text) : FileTree :=
  let root := root.addFolder path
  let isPlain (name : Text) : Bool :=
    canLead (path.join ⟨name⟩) && '/' ∉ name && Text.utf8Size name ≤ maxNameBytes
  match root.folderAlong (start path) (path.spelling.splitOn '/') with
  | .error _ => root
  | .ok (here, entries) =>
    if entries.isEmpty && names.all isPlain then
      put (.folder (names.map fun name => (name, .file (.text [])))) root here
    else
      names.foldl (fun root name =>
        (root.write (path.join ⟨name⟩) (.text [])).toOption.getD root) root

/-! ## Walking -/

/-- What a walk comes to. -/
inductive Visit where
  | file (path : Path)
  | folder (path : Path)
  /-- The folder that was just visited cannot be entered, since its path is too long. -/
  | closed (path : Path)
deriving DecidableEq

/-- What a walk below `here` comes to. It stands for the walk of the file system through a directory
and does what is expected of that one: the entries of a folder come in the order of their names, and
a folder comes before what stands in it. Without `recursive` no folder below `here` is entered. -/
def visitsOf (recursive : Bool) (here : Path) : List (Text × FileTree) → List Visit
  | [] => []
  | (name, .file _) :: rest => .file (here.join ⟨name⟩) :: visitsOf recursive here rest
  | (name, .folder entries) :: rest =>
    let path := here.join ⟨name⟩
    let inside :=
      if !recursive then []
      else if maxPathBytes < Text.utf8Size path.spelling then [.closed path]
      else visitsOf recursive path entries
    .folder path :: inside ++ visitsOf recursive here rest

/-- What a walk comes to that starts at a folder. -/
def visits (recursive : Bool) (here : Path) (entries : List (Text × FileTree)) : List Visit :=
  .folder here :: visitsOf recursive here entries

end FileTree

end TestCatalog
