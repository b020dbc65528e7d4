import TestCatalog.Config.Sync
import TestCatalog.Diagnostics.Journal
import TestCatalog.Source.FileTree
import TestCatalog.Toml.Document

/-!
# Reading sync configurations

A sync configuration is written as a TOML document with a default project, a list of projects and a
root path; the last two may be left out, and other settings do not count.
-/

namespace TestCatalog.SyncConfig

def ofToml? (entries : Toml.Entries) : Option SyncConfig := do
  let defaultProject ← (← Toml.lookup "default_project" entries).toText?
  let projects ←
    match Toml.lookup "project_list" entries with
    | some value => value.toTexts?
    | none => some []
  let root ←
    match Toml.lookup "root_path" entries with
    | some value => value.toText?.map fun t => some (Path.mk t)
    | none => some none
  return { defaultProject, projects, root }

def parse (document : Text) : Except ConfigError SyncConfig :=
  match (Toml.parse? document).bind ofToml? with
  | some config => config.validate.map fun _ => config
  | none => .error .malformed

def loaded (path : Path) (config : SyncConfig) : Event :=
  (Event.info .info "Sync configuration loaded").withDetails
    [("path", path.spelling), ("default_project", config.defaultProject),
      ("projects", Text.ofNat config.projects.length)]

def load (tree : FileTree) (path : Path) : ExceptT ConfigError Logged SyncConfig :=
  match tree.readText path with
  | .error reason => throw (.unreadable path reason.message)
  | .ok document =>
    match parse document with
    | .error e => throw e
    | .ok config => do
      Logged.note (loaded path config)
      return config

end TestCatalog.SyncConfig
