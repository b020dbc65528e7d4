import TestCatalog.Diagnostics.Code
import TestCatalog.Path

/-!
# Sync configuration

A run is configured with the project that every case belongs to, the projects that authors may
list, and the root folder of the test tree.
-/

namespace TestCatalog

structure SyncConfig where
  defaultProject : Text
  projects : List Text := []
  root : Option Path := none

inductive ConfigError where
  | unreadable (path : Path) (reason : Text)
  | malformed
  | emptyDefaultProject
  | duplicateProject (project : Text)
deriving DecidableEq

namespace ConfigError

def message : ConfigError → Text
  | unreadable path reason =>
    "Failed to read sync configuration '" ++ path.spelling ++ "': " ++ reason
  | malformed => "Invalid sync configuration"
  | emptyDefaultProject => "Sync configuration requires a non-empty default_project"
  | duplicateProject project =>
    "Project '" ++ project ++ "' is listed more than once in project_list"

def code (_ : ConfigError) : Code :=
  .invalidSyncConfig

end ConfigError

namespace SyncConfig

/-- Whether authors may list the project; they may always list the default project. -/
def allows (config : SyncConfig) (project : Text) : Bool :=
  project = config.defaultProject || config.projects.contains project

/-- The first entry that stands earlier in the list too. -/
def firstRepeated? (seen : List Text) : List Text → Option Text
  | [] => none
  | project :: rest =>
    if seen.contains project then some project else firstRepeated? (project :: seen) rest

/-- A configuration has a default project and lists no project twice. -/
def validate (config : SyncConfig) : Except ConfigError Unit :=
  if Text.trim config.defaultProject = [] then .error .emptyDefaultProject
  else
    match firstRepeated? [] config.projects with
    | some project => .error (.duplicateProject project)
    | none => .ok ()

end SyncConfig

end TestCatalog
