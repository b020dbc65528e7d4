import TestCatalog.Diagnostics.Log

/-!
# Event buffers

A buffer is a logger that holds events in memory, the most recent ones only: where it is full, the
oldest events make room for a new one.
-/

namespace TestCatalog

/-- The events that are held, oldest first. -/
structure EventBuffer where
  events : Array Event := #[]
  size_le : events.size ≤ Limits.logBuffer := by decide

namespace EventBuffer

/-- The events that stay when one more is to come. -/
def makeRoom (events : Array Event) : Array Event :=
  if Limits.logBuffer ≤ events.size then events.drop (events.size - Limits.logBuffer + 1)
  else events

theorem size_makeRoom_lt (events : Array Event) : (makeRoom events).size < Limits.logBuffer := by
  have hpos : 0 < Limits.logBuffer := by decide
  unfold makeRoom
  split
  · rw [Array.drop_eq_extract, Array.size_extract]
    omega
  · omega

def push (buffer : EventBuffer) (e : Event) : EventBuffer where
  events := (makeRoom buffer.events).push e
  size_le := by
    rw [Array.size_push]
    exact size_makeRoom_lt buffer.events

instance : Logger EventBuffer where
  log := push

instance : EmptyCollection EventBuffer where
  emptyCollection := {}

def errors (buffer : EventBuffer) : List Event :=
  buffer.events.toList.filter Event.isError

def warnings (buffer : EventBuffer) : List Event :=
  buffer.events.toList.filter Event.isWarning

def hasCode (buffer : EventBuffer) (code : Code) : Bool :=
  buffer.events.any fun e => e.code = code

end EventBuffer

end TestCatalog
