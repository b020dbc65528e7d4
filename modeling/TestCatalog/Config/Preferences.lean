import TestCatalog.Diagnostics.Event
import TestCatalog.Text.Lowercase

/-!
# Preferences

Preferences come from environment variables. A variable that is not set, or whose value is no value
of its preference, leaves the preference at its default.
-/

namespace TestCatalog

abbrev Environment := List (Text × Text)

namespace Environment

def get? (env : Environment) (name : Text) : Option Text :=
  (env.find? fun entry => entry.1 = name).map Prod.snd

/-- Reads `true` or `false`, in exactly this spelling. -/
def flag (env : Environment) (name : Text) (fallback : Bool) : Bool :=
  match env.get? name with
  | some value => if value = "true" then true else if value = "false" then false else fallback
  | none => fallback

end Environment

namespace Level

/-- The levels by name and number, whatever the case of the name. -/
def parse? (t : Text) : Option Level :=
  let t := Text.lowercase t
  if t = "error" ∨ t = "0" then some error
  else if t = "warning" ∨ t = "warn" ∨ t = "1" then some warning
  else if t = "info" ∨ t = "2" then some info
  else if t = "debug" ∨ t = "3" then some debug
  else none

end Level

structure FilePreferences where
  /-- Files of another extension than the dialect's are rejected. -/
  requireExtension : Bool
  /-- Size and line count of every file are reported. -/
  reportReads : Bool

structure BatchPreferences where
  recursive : Bool
  parallel : Bool
  failFast : Bool

structure LogPreferences where
  /-- Events are written as JSON. -/
  structured : Bool
  /-- More detailed events are left out. -/
  minLevel : Level
  /-- A run closes with a report of its findings file by file. -/
  findingsReport : Bool
  /-- The current file is attached to every event. -/
  includeFile : Bool

structure Preferences where
  files : FilePreferences
  batch : BatchPreferences
  log : LogPreferences

namespace Preferences

def ofEnvironment (env : Environment) : Preferences where
  files :=
    { requireExtension := env.flag "CASEDOC_REQUIRE_DIALECT_EXTENSION" true
      reportReads := env.flag "CASEDOC_ENABLE_PERFORMANCE_LOGGING" true }
  batch :=
    { recursive := env.flag "CASEDOC_BATCH_RECURSIVE" true
      parallel := env.flag "CASEDOC_BATCH_PARALLEL" false
      failFast := env.flag "CASEDOC_BATCH_FAIL_FAST" false }
  log :=
    { structured := env.flag "CASEDOC_LOGGING_USE_STRUCTURED" false
      minLevel := ((env.get? "CASEDOC_LOGGING_MIN_LEVEL").bind Level.parse?).getD .info
      findingsReport := env.flag "CASEDOC_LOGGING_CARGO_STYLE" true
      includeFile := env.flag "CASEDOC_LOGGING_INCLUDE_FILE_CONTEXT" true }

end Preferences

namespace LogPreferences

def summary (p : LogPreferences) : Text :=
  "Logging Configuration (" ++ Limits.source ++ "):\n" ++
    "- Log buffer size: " ++ Text.ofNat Limits.logBuffer ++ "\n" ++
    "- Max events per file: " ++ Text.ofNat Limits.eventsPerFile ++ "\n" ++
    "- Max message length: " ++ Text.ofNat Limits.messageBytes ++ "\n" ++
    "- Min log level: " ++ p.minLevel.label ++ "\n" ++
    "- Structured logging: " ++ Text.ofBool p.structured ++ "\n" ++
    "- Cargo-style output: " ++ Text.ofBool p.findingsReport ++ "\n" ++
    "- Include file context: " ++ Text.ofBool p.includeFile

end LogPreferences

end TestCatalog
