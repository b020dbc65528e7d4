import TestCatalog.Calendar
import TestCatalog.Diagnostics.Code
import TestCatalog.Json
import TestCatalog.Limits
import TestCatalog.SortedMap
import TestCatalog.Text.Utf8

/-!
# Events

An event is one finding or step of progress, with a level, a code, a message that is cut at a
byte limit, the source line it is about where one is known, and named details.
-/

namespace TestCatalog

inductive Level where
  | error
  | warning
  | info
  | debug
deriving DecidableEq

namespace Level

/-- Zero for errors; a greater rank is more detailed. -/
def rank : Level → Nat
  | error => 0
  | warning => 1
  | info => 2
  | debug => 3

def label : Level → Text
  | error => "ERROR"
  | warning => "WARN"
  | info => "INFO"
  | debug => "DEBUG"

def name : Level → Text
  | error => "Error"
  | warning => "Warning"
  | info => "Info"
  | debug => "Debug"

/-- Whether an event of this level is reported under the minimum level `min`. -/
def passes (level min : Level) : Bool :=
  level.rank ≤ min.rank

end Level

structure Event where
  level : Level
  code : Code
  message : Text
  line : Option Nat := none
  context : SortedMap Text Text := {}

namespace Event

/-- An event without line or details; the message is cut at the limit. -/
def make (level : Level) (code : Code) (message : Text) : Event :=
  { level, code, message := Text.truncate Limits.messageBytes message }

def error (code : Code) (message : Text) : Event :=
  make .error code message

def warning (code : Code) (message : Text) : Event :=
  make .warning code message

def info (code : Code) (message : Text) : Event :=
  make .info code message

def debug (message : Text) : Event :=
  make .debug .debug message

def withDetail (e : Event) (detail : Text × Text) : Event :=
  { e with context := e.context.insert detail.1 detail.2 }

/-- Sets details from the left, so that the last value of a key stays. -/
def withDetails (e : Event) (details : List (Text × Text)) : Event :=
  details.foldl withDetail e

def atLine (e : Event) (line : Nat) : Event :=
  { e with line := some line }

def isError (e : Event) : Bool :=
  e.level = .error

def isWarning (e : Event) : Bool :=
  e.level = .warning

/-- Errors and warnings are findings; the other levels report progress. -/
def isFinding (e : Event) : Bool :=
  e.isError || e.isWarning

/-! ## Written forms -/

def render (e : Event) : Text :=
  "[" ++ e.level.label ++ "] " ++ e.code.id ++ " - " ++ e.message ++
    match e.line with
    | some line => " at line " ++ Text.ofNat line
    | none => []

/-- The event as a JSON object with sorted keys; errors carry their classification. -/
def toJson (e : Event) (time : Timestamp) : Json :=
  let context := e.context.entries.map fun (key, value) => (key, Json.string value)
  let classification : List (Text × Json) := [
    ("description", .string e.code.description),
    ("recommended_action", .string e.code.action),
    ("recoverable", .bool e.code.isRecoverable),
    ("requires_halt", .bool e.code.requiresHalt)]
  let fields : List (List (Text × Json)) := [
    [("category", .string e.code.category), ("code", .string e.code.id)],
    if context.isEmpty then [] else [("context", .object context)],
    if e.isError then [("error_metadata", .object classification)] else [],
    [("level", .string e.level.label)],
    match e.line with
    | some line => [("line", .natural line)]
    | none => [],
    [("message", .string e.message), ("severity", .string e.code.severity.label),
      ("timestamp", .string time.render)]]
  .object fields.flatten

end Event

end TestCatalog
