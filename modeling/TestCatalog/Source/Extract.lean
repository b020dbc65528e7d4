import TestCatalog.Assembly.Basic
import TestCatalog.Dialect.Filter
import TestCatalog.Source.File

/-!
# Extraction

The test cases of one source file: the file is read, its folder path below the root is found, its
lines are filtered and its block is assembled. Everything is reported under the file.
-/

namespace TestCatalog

inductive ExtractionError where
  | file (e : FileError)
  | grammar (e : GrammarError)
  | rootNotFound (root : Text) (path : Path)
  | internal (message : Text)
deriving DecidableEq

namespace ExtractionError

def message : ExtractionError → Text
  | file e => "File processing failed: " ++ e.message
  | grammar e => e.message
  | rootNotFound root path =>
    "The root folder '" ++ root ++ "' was not found in path '" ++ path.spelling ++
      "' The path must follow the root folder"
  | internal message => "Pipeline error: " ++ message

def code : ExtractionError → Code
  | file e => e.code
  | grammar e => e.code
  | rootNotFound .. => .rootFolderNotFound
  | internal _ => .internalError

/-- A recoverable error lets a batch go on without the file. -/
def isRecoverable (e : ExtractionError) : Bool :=
  e.code.isRecoverable

def case? : ExtractionError → Option Text
  | grammar e => e.case?
  | _ => none

end ExtractionError

structure Extraction where
  cases : ParsedCases
  file : SourceFile
  folder : Text

namespace Extraction

def completed (x : Extraction) : Event :=
  (Event.info .completed "Documentation extracted from file").withDetails
    [("file", x.file.path.spelling), ("folder", x.folder),
      ("added", Text.ofNat x.cases.added.length), ("updated", Text.ofNat x.cases.updated.length)]

end Extraction

namespace SyncConfig

/-- The folder path recorded on the cases of a file: its path from the root folder on, or its whole
path with slashes where no root is set. -/
def folderOf (config : SyncConfig) (path : Path) : Except ExtractionError Text :=
  match config.root with
  | none => .ok (path.spelling.map fun c => if c = '\\' then '/' else c)
  | some root =>
    match root.folderBelow? path with
    | some folder => .ok folder
    | none => .error (.rootNotFound (root.rootName?.getD []) path)

/-- Finds the folder path and reports where there is none. -/
def resolveFolder (config : SyncConfig) (path : Path) : ExceptT ExtractionError Logged Text :=
  match config.folderOf path with
  | .ok folder => pure folder
  | .error e => do
    Logged.note (.error e.code e.message)
    throw e

end SyncConfig

structure Extractor where
  config : SyncConfig
  dialect : Dialect
  mode : SyncMode
  reader : FileReader

namespace Extractor

def started (x : Extractor) (path : Path) : Event :=
  (Event.info .info "Extracting documentation").withDetails
    [("file", path.spelling), ("dialect", x.dialect.name),
      ("want_add", Text.ofBool x.mode.wantAdd), ("want_update", Text.ofBool x.mode.wantUpdate)]

/-- The filtered block of a source; reports why there is none. -/
def filtered (x : Extractor) (source : Text) : ExceptT ExtractionError Logged Text :=
  match x.dialect.filter source with
  | .ok block => pure block
  | .error e => do
    Logged.note (.error e.code e.message)
    throw (.grammar e)

def run (x : Extractor) (tree : FileTree) (path : Path) :
    ExceptT ExtractionError Logged Extraction := do
  Logged.note (x.started path)
  let file ← ExceptT.adapt ExtractionError.file (x.reader.read tree path)
  let folder ← x.config.resolveFolder path
  let block ← x.filtered file.source
  let assembler : Assembler := { config := x.config, dialect := x.dialect, mode := x.mode, folder }
  let cases ← ExceptT.adapt ExtractionError.grammar (ExceptT.mk (assembler.assemble block))
  let extraction : Extraction := { cases, file, folder }
  Logged.note extraction.completed
  return extraction

/-- Extracts the test cases of a file, with the file as the current one. -/
def extract (x : Extractor) (tree : FileTree) (path : Path) (id : Nat) :
    Logged (Except ExtractionError Extraction) :=
  Logged.within ⟨path, id⟩ (x.run tree path).run

end Extractor

end TestCatalog
