import Mathlib.Data.List.DropRight
import TestCatalog.Proofs.CollectedFindings

/-!
# Attribution of findings to files

The logging functions may be called in any order and nested in the work on a file. What a desk
collects of a file are the errors and warnings that were logged since the findings were last
cleared while the file was the current one.
-/

namespace TestCatalog.Proofs

/-! ## Calls -/

/-- A logging function and its arguments. -/
inductive Act where
  | setFile (file : FileContext)
  | clearFile
  | logError (code : Code) (message : Text) (line : Option ℕ) (details : List (Text × Text))
  /-- The event is made by the caller, so that it may be of any level. -/
  | logWarning (e : Event) (details : List (Text × Text))
  | logInfo (message : Text) (details : List (Text × Text))
  | logDebug (message : Text) (details : List (Text × Text))
  | logSuccess (code : Code) (message : Text) (details : List (Text × Text))
  | logSafely (code : Code) (message : Text)
  | clearFindings

namespace Act

/-- The event of an error, with its line where that is known. -/
def errorEvent (code : Code) (message : Text) (line : Option ℕ) (details : List (Text × Text)) :
    Event :=
  Event.withDetails { Event.error code message with line } details

/-- The entry that the call leaves in the journal. -/
def entry : Act → Entry
  | setFile file => .enter file
  | clearFile => .leave
  | logError code message line details => .report (errorEvent code message line details)
  | logWarning e details => .report (e.withDetails details)
  | logInfo message details => .report ((Event.info .info message).withDetails details)
  | logDebug message details => .report ((Event.debug message).withDetails details)
  | logSuccess code message details => .report ((Event.info code message).withDetails details)
  | logSafely code message => .aside (.error code message)
  | clearFindings => .forget

end Act

/-- A call, alone or within the work on a file. -/
inductive Call where
  | one (act : Act)
  | within (file : FileContext) (calls : List Call)

mutual

def Call.run : Call → Logged Unit
  | .one act => { value := (), journal := [act.entry] }
  | .within file calls => .within file (runCalls calls)

def runCalls : List Call → Logged Unit
  | [] => pure ()
  | call :: calls => do
    call.run
    runCalls calls

end

/-! ## What was logged -/

mutual

/-- The call without nesting: the work on a file sets the file and afterwards clears it. -/
def Call.acts : Call → List Act
  | .one act => [act]
  | .within file calls => .setFile file :: flatCalls calls ++ [.clearFile]

def flatCalls : List Call → List Act
  | [] => []
  | call :: calls => call.acts ++ flatCalls calls

end

namespace Act

/-- The current file after the call. -/
def next (current : Option FileContext) : Act → Option FileContext
  | setFile file => some file
  | clearFile => none
  | _ => current

/-- The event that the call logs, if it logs one. -/
def event? : Act → Option Event
  | logError code message line details => some (errorEvent code message line details)
  | logWarning e details => some (e.withDetails details)
  | logInfo message details => some ((Event.info .info message).withDetails details)
  | logDebug message details => some ((Event.debug message).withDetails details)
  | logSuccess code message details => some ((Event.info code message).withDetails details)
  | logSafely code message => some (.error code message)
  | _ => none

/-- The error or warning that the call is to have collected. -/
def finding? : Act → Option Event
  | logError code message line details => some (errorEvent code message line details)
  | logWarning e details => if e.isFinding then some (e.withDetails details) else none
  | _ => none

def isClear : Act → Bool
  | clearFindings => true
  | _ => false

end Act

/-- The calls, each with the file that is current when it is made. -/
def history (current : Option FileContext) : List Act → List (Option FileContext × Act)
  | [] => []
  | act :: acts => (current, act) :: history (act.next current) acts

/-- The call's finding, if the call is made while the path's file is the current one. -/
def findingAbout? (attachesFile : Bool) (path : Path) (made : Option FileContext × Act) :
    Option Event :=
  made.1.bind fun file =>
    if file.path.components = path.components then made.2.finding?.map (attached attachesFile file)
    else none

/-- The findings about the path since the last time that the findings were cleared. -/
def findingsAbout (attachesFile : Bool) (path : Path) (past : List (Option FileContext × Act)) :
    List Event :=
  (past.rtakeWhile fun made => !made.2.isClear).filterMap (findingAbout? attachesFile path)

/-- The event that the call sends to the log: with the current file, unless it is logged safely. -/
def loggedEvent? (attachesFile : Bool) : Option FileContext × Act → Option Event
  | (_, .logSafely code message) => some (.error code message)
  | (some file, act) => act.event?.map (attached attachesFile file)
  | (none, act) => act.event?

/-! ## Journals of calls -/

mutual

lemma journal_run : ∀ call : Call, call.run.journal = call.acts.map Act.entry
  | .one act => rfl
  | .within file calls => by
    have hcalls := journal_runCalls calls
    show Entry.enter file :: (runCalls calls).journal ++ [.leave] = _
    rw [hcalls, Call.acts, List.map_append]
    rfl

lemma journal_runCalls : ∀ calls : List Call,
    (runCalls calls).journal = (flatCalls calls).map Act.entry
  | [] => rfl
  | call :: calls => by
    have hcall := journal_run call
    have hcalls := journal_runCalls calls
    show call.run.journal ++ (runCalls calls).journal = _
    rw [hcall, hcalls, flatCalls, List.map_append]

end

/-! ## Steps of a desk -/

/-- What is to be collected of a call is what it reports, if that is a finding. -/
lemma finding?_eq (act : Act) : act.finding? =
    match act.entry with
    | .report e => if e.isFinding then some e else none
    | _ => none := by
  cases act <;>
    simp [Act.finding?, Act.entry, Act.errorEvent, Event.isFinding, Event.isError, Event.isWarning,
      Event.error, Event.info, Event.debug, Event.make]

lemma isClear_eq (act : Act) : act.isClear =
    match act.entry with
    | .forget => true
    | _ => false := by
  cases act <;> rfl

variable {α : Type} [Logger α]

lemma current_apply (desk : Desk α) (act : Act) :
    (desk.apply act.entry).current = act.next desk.current := by
  cases act <;> rfl

lemma key_injective : Function.Injective Path.Component.key := by
  intro component other h
  cases component <;> cases other <;> simp_all [Path.Component.key]

lemma key_eq_iff {path other : Path} :
    path.key = other.key ↔ path.components = other.components :=
  (List.map_injective_iff.mpr key_injective).eq_iff

/-- A recorded event is kept for its own path and for no other. -/
lemma events_record {c : Collector} {path : Path} {events : List Event}
    (h : c.events path = kept events) (other : Path) (e : Event) :
    (c.record other e).events path =
      if other.components = path.components then kept (events ++ [e]) else kept events := by
  unfold Collector.events at h ⊢
  rw [get?_record]
  by_cases hkey : other.components = path.components
  · have hsame : path.key = other.key := key_eq_iff.mpr hkey.symm
    have hlog : ((c.files.get? path.key).getD { path := other }).events = kept events := by
      rw [← h]
      cases c.files.get? path.key <;> rfl
    rw [if_pos hsame, if_pos hkey, ← hsame, Option.map_some, Option.getD_some]
    have hrecord := record_kept ((c.files.get? path.key).getD { path := other }).path events e
    rw [← hlog] at hrecord
    exact congrArg FileLog.events hrecord
  · rw [if_neg fun hsame => hkey (key_eq_iff.mp hsame).symm, if_neg hkey]
    exact h

/-- One more call, after what was selected since the last one that clears. -/
lemma filterMap_since_concat {α β : Type} (isClear : α → Bool) (select : α → Option β)
    (past : List α) (made : α) : ((past ++ [made]).rtakeWhile fun a => !isClear a).filterMap select =
      if isClear made then []
      else (past.rtakeWhile fun a => !isClear a).filterMap select ++ (select made).toList := by
  cases hclear : isClear made with
  | true =>
    rw [List.rtakeWhile_concat_neg _ _ _ (by simp [hclear]), if_pos rfl, List.filterMap_nil]
  | false =>
    rw [List.rtakeWhile_concat_pos _ _ _ (by simp [hclear]), if_neg Bool.false_ne_true,
      List.filterMap_append]
    cases hselected : select made <;> simp [hselected]

lemma findingsAbout_concat (attachesFile : Bool) (path : Path)
    (past : List (Option FileContext × Act)) (made : Option FileContext × Act) :
    findingsAbout attachesFile path (past ++ [made]) =
      if made.2.isClear then []
      else findingsAbout attachesFile path past ++ (findingAbout? attachesFile path made).toList :=
  filterMap_since_concat (fun made : Option FileContext × Act => made.2.isClear)
    (findingAbout? attachesFile path) past made

/-- What is kept of a path after a call. -/
lemma events_apply {desk : Desk α} {path : Path} {events : List Event}
    (h : desk.collector.events path = kept events) (act : Act) :
    (desk.apply act.entry).collector.events path = kept (if act.isClear then []
      else events ++ (findingAbout? desk.attachesFile path (desk.current, act)).toList) := by
  unfold findingAbout?
  simp only [isClear_eq, finding?_eq]
  cases act.entry with
  | report e =>
    show (desk.report e).collector.events path = _
    cases hcurrent : desk.current with
    | none =>
      have hcollector : (desk.report e).collector = desk.collector := by
        simp only [Desk.report, hcurrent]
      rw [hcollector, h]
      simp
    | some file =>
      rw [collector_report hcurrent]
      by_cases hfinding : e.isFinding = true
      · rw [if_pos hfinding, events_record h]
        by_cases hpath : file.path.components = path.components
        · simp [hfinding, hpath]
        · simp [hpath]
      · rw [if_neg hfinding, h]
        simp [hfinding]
  | forget => rfl
  | aside e => exact h.trans (by simp)
  | enter file => exact h.trans (by simp)
  | leave => exact h.trans (by simp)

lemma log_report (desk : Desk α) (e : Event) : (desk.report e).log =
    desk.log.log ((desk.current.map fun file => attached desk.attachesFile file e).getD e) := by
  show desk.log.log (desk.attach e) = _
  unfold Desk.attach
  cases desk.current <;> rfl

lemma log_apply (desk : Desk α) (act : Act) : (desk.apply act.entry).log =
    (loggedEvent? desk.attachesFile (desk.current, act)).elim desk.log desk.log.log := by
  cases act with
  | setFile file => cases desk.current <;> rfl
  | clearFile => cases desk.current <;> rfl
  | clearFindings => cases desk.current <;> rfl
  | logSafely code message => cases desk.current <;> rfl
  | _ => exact (log_report desk _).trans (by cases desk.current <;> rfl)

/-- What a desk holds of the calls that were made on it, beyond what its logger took in before. -/
structure Holds (start : LogService α) (attachesFile : Bool)
    (past : List (Option FileContext × Act)) (desk : Desk α) : Prop where
  attaches : desk.attachesFile = attachesFile
  minLevel : desk.log.minLevel = start.minLevel
  logger : desk.log.logger = ((past.filterMap (loggedEvent? attachesFile)).filter
    fun e => e.level.passes start.minLevel).foldl Logger.log start.logger
  events : ∀ path, desk.collector.events path = kept (findingsAbout attachesFile path past)

variable {start : LogService α} {attachesFile : Bool} {past : List (Option FileContext × Act)}
  {desk : Desk α}

lemma Holds.step (h : Holds start attachesFile past desk) (act : Act) :
    Holds start attachesFile (past ++ [(desk.current, act)]) (desk.apply act.entry) := by
  have hlog := log_apply desk act
  rw [h.attaches] at hlog
  refine ⟨?_, ?_, ?_, fun path => ?_⟩
  · rw [← h.attaches]
    cases act <;> rfl
  · rw [hlog, ← h.minLevel]
    cases loggedEvent? attachesFile (desk.current, act) with
    | none => rfl
    | some e =>
      show (desk.log.log e).minLevel = desk.log.minLevel
      unfold LogService.log
      split <;> rfl
  · rw [hlog, List.filterMap_append, List.filter_append, List.foldl_append, ← h.logger,
      ← h.minLevel]
    cases hevent : loggedEvent? attachesFile (desk.current, act) with
    | none => simp [hevent]
    | some e =>
      show (desk.log.log e).logger = _
      unfold LogService.log LogService.shouldLog
      split <;> simp [*]
  · rw [events_apply (h.events path), findingsAbout_concat, h.attaches]

/-- What holds of the calls so far holds of all calls in the end. -/
lemma Holds.run (h : Holds start attachesFile past desk) (acts : List Act) :
    Holds start attachesFile (past ++ history desk.current acts)
      (desk.replay (acts.map Act.entry)) := by
  induction acts generalizing past desk with
  | nil => rwa [history, List.append_nil]
  | cons act acts ih =>
    have hrest := ih (h.step act)
    rw [current_apply, List.append_assoc] at hrest
    exact hrest

/-- Whatever is called on a desk with nothing collected: the findings that it keeps of a path are
those logged about it since they were last cleared, and its logger, whichever it is, takes in every
event that passes. -/
theorem findings_by_file (start : LogService α) (attachesFile : Bool) (current : Option FileContext)
    (calls : List Call) (path : Path) :
    let after := { log := start, current, attachesFile : Desk α }.replay (runCalls calls).journal
    let past := history current (flatCalls calls)
    after.collector.events path = kept (findingsAbout attachesFile path past) ∧
      after.log.logger = ((past.filterMap (loggedEvent? attachesFile)).filter
        fun e => e.level.passes start.minLevel).foldl Logger.log start.logger := by
  have hstart : Holds start attachesFile [] { log := start, current, attachesFile } :=
    ⟨rfl, rfl, rfl, fun path => rfl⟩
  have hend := hstart.run (flatCalls calls)
  rw [← journal_runCalls] at hend
  exact ⟨hend.events path, hend.logger⟩

end TestCatalog.Proofs
