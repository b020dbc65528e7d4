import TestCatalog.Decimal
import TestCatalog.Diagnostics.Event
import TestCatalog.Path

/-!
# The collector

The collector keeps the events of each file of a run, up to a limit per file. Its report lists
the errors and warnings file by file and closes with their counts.
-/

namespace TestCatalog

/-- The file that is being worked on, and its number in the run. -/
structure FileContext where
  path : Path
  id : Nat
deriving DecidableEq

/-- The events kept for one file, in the order of their arrival. -/
structure FileLog where
  path : Path
  events : List Event := []

namespace FileLog

/-- The warning that stands for all events beyond the limit. -/
def overflow : Event :=
  .warning .eventLimitReached
    ("Too many events for file (limit: " ++ Text.ofNat Limits.eventsPerFile ++ ")")

/-- Keeps an event. The first event beyond the limit leaves the overflow warning in its place, and
those after it leave nothing. -/
def record (log : FileLog) (e : Event) : FileLog :=
  if log.events.length < Limits.eventsPerFile then { log with events := log.events ++ [e] }
  else if log.events.length = Limits.eventsPerFile then
    { log with events := log.events ++ [overflow] }
  else log

def errors (log : FileLog) : List Event :=
  log.events.filter Event.isError

def warnings (log : FileLog) : List Event :=
  log.events.filter Event.isWarning

end FileLog

/-- The events of a run by file. Files are told apart by the components of their paths; the
spelling that came first stays. -/
structure Collector where
  files : SortedMap (List Text) FileLog := {}
  begun : SortedMap (List Text) FileContext := {}

structure Summary where
  files : Nat
  clean : Nat
  failed : Nat
  warned : Nat
  errors : Nat
  warnings : Nat

namespace Summary

def successRate (s : Summary) : Ratio :=
  rate s.clean s.files

def hasErrors (s : Summary) : Bool :=
  0 < s.errors

def hasWarnings (s : Summary) : Bool :=
  0 < s.warnings

end Summary

namespace Collector

def record (c : Collector) (path : Path) (e : Event) : Collector :=
  let log := (c.files.get? path.key).getD { path }
  { c with files := c.files.insert path.key (log.record e) }

def begin (c : Collector) (file : FileContext) : Collector :=
  { c with begun := c.begun.insert file.path.key file }

def logs (c : Collector) : List FileLog :=
  c.files.values

def events (c : Collector) (path : Path) : List Event :=
  ((c.files.get? path.key).map FileLog.events).getD []

def errors (c : Collector) (path : Path) : List Event :=
  (c.events path).filter Event.isError

def warnings (c : Collector) (path : Path) : List Event :=
  (c.events path).filter Event.isWarning

def size (c : Collector) : Nat :=
  (c.logs.flatMap FileLog.events).length

def failedFiles (c : Collector) : List Path :=
  (c.logs.filter fun log => log.events.any Event.isError).map FileLog.path

def summary (c : Collector) : Summary :=
  let logs := c.logs
  let failed (log : FileLog) : Bool := !log.errors.isEmpty
  let warned (log : FileLog) : Bool := log.errors.isEmpty && !log.warnings.isEmpty
  { files := logs.length
    clean := logs.countP fun log => !failed log && !warned log
    failed := logs.countP failed
    warned := logs.countP warned
    errors := (logs.flatMap FileLog.errors).length
    warnings := (logs.flatMap FileLog.warnings).length }

/-! ## Report -/

def location (path : Path) (e : Event) : Text :=
  match e.line, e.context.get? "case" with
  | some line, _ => " --> " ++ path.spelling ++ ":" ++ Text.ofNat line
  | none, some case => " --> " ++ path.spelling ++ " (" ++ case ++ ")"
  | none, none => []

/-- One `= key: value` note under a finding. -/
def renderNote (key value : Text) : Text :=
  "  = " ++ key ++ ": " ++ value ++ "\n"

/-- A finding, its details, and for an error its classification and help. -/
def renderFinding (path : Path) (e : Event) : Text :=
  let kind : Text := if e.isError then "error" else "warning"
  let head := kind ++ "[" ++ e.code.id ++ "]: " ++ e.message ++ location path e ++ "\n"
  let classification : Text :=
    if e.isError then
      "  = severity: " ++ e.code.severity.label ++ ", category: " ++ e.code.category ++ "\n"
    else []
  let details := e.context.entries.filter fun (key, _) => key ≠ "file" ∧ key ≠ "file_id"
  let help : Text :=
    match e.code.classification? with
    | some entry => if e.isError then renderNote "help" entry.action else []
    | none => []
  head ++ classification ++ details.flatMap (fun (key, value) => renderNote key value) ++ help

/-- Sorts the errors to the front; errors and other events keep their order. -/
def errorsFirst (events : List Event) : List Event :=
  events.mergeSort fun e e' => (!e.isError) ≤ (!e'.isError)

def renderLog (log : FileLog) : Text :=
  let reported := log.events.filter Event.isFinding
  if reported.isEmpty then []
  else
    "Checking " ++ log.path.spelling ++ "...\n" ++
      (errorsFirst reported).flatMap (renderFinding log.path) ++ "\n"

/-- The closing counts, each where it is not zero. -/
def renderCounts (s : Summary) : Text :=
  let errors : Text :=
    if s.hasErrors then
      "\n" ++ Text.ofNat s.errors ++ " error(s) in " ++ Text.ofNat s.failed ++ " file(s)\n"
    else []
  let warnings : Text :=
    if s.hasWarnings then Text.ofNat s.warnings ++ " warning(s)\n" else []
  errors ++ warnings

def render (c : Collector) : Text :=
  c.logs.flatMap renderLog ++ renderCounts c.summary

end Collector

end TestCatalog
