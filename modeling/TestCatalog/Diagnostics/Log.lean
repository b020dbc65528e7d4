import TestCatalog.Diagnostics.Event

/-!
# Logs

A log service passes on the events that its minimum level lets through to a logger, which takes them
in. A console writes them.
-/

namespace TestCatalog

/-- What takes in events, one after another. -/
class Logger (α : Type) where
  log : α → Event → α

structure LogService (α : Type) where
  minLevel : Level
  logger : α

namespace LogService

variable {α : Type}

def shouldLog (service : LogService α) (level : Level) : Bool :=
  level.passes service.minLevel

def log [Logger α] (service : LogService α) (e : Event) : LogService α :=
  if service.shouldLog e.level then { service with logger := Logger.log service.logger e }
  else service

def setLevel (service : LogService α) (min : Level) : LogService α :=
  { service with minLevel := min }

/-- Empties the logger; the minimum level stays. -/
def clear [EmptyCollection α] (service : LogService α) : LogService α :=
  { service with logger := ∅ }

end LogService

/-- A console's settings: lines are plain text or JSON. -/
structure Console where
  minLevel : Level
  structured : Bool

structure ConsoleOutput where
  out : Text := []
  err : Text := []

namespace Console

def renderEvent (console : Console) (e : Event) (time : Timestamp) : Text :=
  (if console.structured then (e.toJson time).render else e.render) ++ "\n"

/-- Writes the events that pass, one line each; errors go to the error stream. -/
def write (console : Console) (events : List (Event × Timestamp)) : ConsoleOutput :=
  let passing := events.filter fun (e, _) => e.level.passes console.minLevel
  let stream (wanted : Event → Bool) : Text :=
    (passing.filter fun (e, _) => wanted e).flatMap fun (e, time) => console.renderEvent e time
  { out := stream (!·.isError), err := stream Event.isError }

end Console

end TestCatalog
