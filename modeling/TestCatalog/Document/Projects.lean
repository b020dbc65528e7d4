import TestCatalog.Config.Sync
import TestCatalog.Dialect.Basic
import TestCatalog.Document.Reader

/-!
# Project lines

The last line of a test case lists its projects. Every case belongs to the default project too.
-/

namespace TestCatalog

/-- A finding that does not keep a case out of the catalogue. -/
inductive AssemblyWarning where
  /-- A case of a keyword table lists the default project alone. -/
  | onlyDefaultProject (case project : Text)
deriving DecidableEq

namespace AssemblyWarning

def code : AssemblyWarning → Code
  | onlyDefaultProject .. => .onlyDefaultProject

def case : AssemblyWarning → Text
  | onlyDefaultProject case _ => case

def message : AssemblyWarning → Text
  | onlyDefaultProject case project =>
    "You are ONLY adding test case " ++ case ++ " to the default project: " ++ project

def event (w : AssemblyWarning) : Event :=
  (Event.warning w.code w.message).withDetail ("case", w.case)

end AssemblyWarning

namespace Projects

def mark : Text := "Projects:"

/-- What authors write for no project at all. -/
def noProject : Text := "NA"

/-- The projects that a line lists after its mark. -/
def listed (scope : Text) : List Text :=
  (scope.splitOn ',').map Text.trim

def check (config : SyncConfig) (case : Text) : List Text → Except GrammarError Unit
  | [] => .ok ()
  | project :: rest =>
    if project = [] ∨ project = noProject then .error (.emptyProjectScope case)
    else if config.allows project then check config case rest
    else .error (.unknownProject project case)

/-- A case of a keyword table lists the default project alone. -/
def OnlyDefault (config : SyncConfig) (d : Dialect) (projects : List Text) : Prop :=
  d = .keywordTable ∧ projects = [config.defaultProject]

instance (config : SyncConfig) (d : Dialect) (projects : List Text) :
    Decidable (OnlyDefault config d projects) :=
  inferInstanceAs (Decidable (_ ∧ _))

def warning? (config : SyncConfig) (d : Dialect) (case : Text) (projects : List Text) :
    Option AssemblyWarning :=
  if OnlyDefault config d projects then
    some (.onlyDefaultProject case config.defaultProject)
  else none

def read (config : SyncConfig) (d : Dialect) (case : Text) :
    Reader (List Text × Option AssemblyWarning) := do
  let line ← Reader.nextTrimmed
  let scope ← Reader.require (Text.stripStart? mark line) (.missingProjectsLine case)
  let projects := listed scope
  let warning := warning? config d case projects
  Reader.noteAll (warning.toList.map AssemblyWarning.event)
  Reader.lift (check config case projects)
  pure (projects, warning)

theorem forward_read (config : SyncConfig) (d : Dialect) (case : Text) :
    (read config d case).Forward :=
  Reader.forward_bind Reader.forward_nextTrimmed fun _ =>
    Reader.forward_bind (Reader.forward_require _ _) fun _ =>
      Reader.forward_bind (Reader.forward_noteAll _) fun _ =>
        Reader.forward_bind (Reader.forward_lift _) fun _ => Reader.forward_pure _

end Projects

end TestCatalog
