import TestCatalog.Diagnostics.Collector
import TestCatalog.Diagnostics.Log

/-!
# The journal

Work reports its events in a journal, which also says when the work on a file begins and ends.
Replaying a journal on a desk sends every event to the log, attaches the current file to it, and
collects the findings under that file.
-/

namespace TestCatalog

inductive Entry where
  /-- An event about the current file, if there is one. -/
  | report (e : Event)
  /-- An event that is about no file. -/
  | aside (e : Event)
  | enter (file : FileContext)
  /-- There is no current file any more. -/
  | leave
  | forget

abbrev Journal := List Entry

/-! ## Desks -/

/-- Where journals are replayed: a log, a collector and the current file. -/
structure Desk (α : Type) where
  log : LogService α
  collector : Collector := {}
  current : Option FileContext := none
  /-- Whether the current file is attached to the events. -/
  attachesFile : Bool := true

namespace Desk

variable {α : Type}

def attach (desk : Desk α) (e : Event) : Event :=
  match desk.current with
  | some file =>
    if desk.attachesFile then
      e.withDetails [("file", file.path.spelling), ("file_id", Text.ofNat file.id)]
    else e
  | none => e

/-- Logs an event and collects it if it is a finding about the current file. -/
def report [Logger α] (desk : Desk α) (e : Event) : Desk α :=
  let e := desk.attach e
  let collector :=
    match desk.current with
    | some file => if e.isFinding then desk.collector.record file.path e else desk.collector
    | none => desk.collector
  { desk with log := desk.log.log e, collector }

def apply [Logger α] (desk : Desk α) : Entry → Desk α
  | .report e => desk.report e
  | .aside e => { desk with log := desk.log.log e }
  | .enter file => { desk with current := some file, collector := desk.collector.begin file }
  | .leave => { desk with current := none }
  | .forget => { desk with collector := {} }

def replay [Logger α] (desk : Desk α) (journal : Journal) : Desk α :=
  journal.foldl apply desk

end Desk

/-! ## Journaled results -/

/-- A value and the journal of the work that led to it. -/
structure Logged (α : Type) where
  value : α
  journal : Journal := []

namespace Logged

variable {α β : Type}

instance : Monad Logged where
  pure a := { value := a }
  bind x f :=
    let rest := f x.value
    { value := rest.value, journal := x.journal ++ rest.journal }

def note (e : Event) : Logged Unit :=
  { value := (), journal := [.report e] }

/-- Does the work with `file` as the current file; afterwards no file is current. -/
def within (file : FileContext) (work : Logged α) : Logged α :=
  { value := work.value, journal := .enter file :: work.journal ++ [.leave] }

end Logged

end TestCatalog
