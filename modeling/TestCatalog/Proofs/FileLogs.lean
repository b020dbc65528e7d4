import Mathlib.Algebra.Ring.Nat
import TestCatalog.Proofs.FileAttribution

/-!
# The files of a collector

Events are recorded under paths, files are begun, and the collector is cleared, in any order. What
the collector then holds is told by the events recorded since it was last cleared: one log for each
path, under the spelling that came first, with the events that are kept of those recorded for it.
Every count of the collector is a count over these files.
-/

namespace TestCatalog.Proofs

/-! ## Calls -/

inductive CollectorCall where
  | record (path : Path) (e : Event)
  | begin (file : FileContext)
  | clear

namespace CollectorCall

def apply (c : Collector) : CollectorCall → Collector
  | record path e => c.record path e
  | begin file => c.begin file
  | clear => {}

def isClear : CollectorCall → Bool
  | clear => true
  | _ => false

def record? : CollectorCall → Option (Path × Event)
  | record path e => some (path, e)
  | _ => none

end CollectorCall

/-- A collector after the calls. -/
def collected (calls : List CollectorCall) : Collector :=
  calls.foldl CollectorCall.apply {}

/-- The events that were recorded since the collector was last cleared, with their paths. -/
def recorded (calls : List CollectorCall) : List (Path × Event) :=
  (calls.rtakeWhile fun call => !call.isClear).filterMap CollectorCall.record?

lemma recorded_concat (calls : List CollectorCall) (call : CollectorCall) :
    recorded (calls ++ [call]) =
      if call.isClear then [] else recorded calls ++ call.record?.toList :=
  filterMap_since_concat CollectorCall.isClear CollectorCall.record? calls call

/-! ## Records by path -/

variable {records : List (Path × Event)} {path : Path}

/-- The events that were recorded for the path, however it was spelled. -/
def eventsAbout (records : List (Path × Event)) (path : Path) : List Event :=
  (records.filter fun r => r.1.components = path.components).map Prod.snd

/-- The path as it was spelled when an event was first recorded for it. -/
def firstSpelling? (records : List (Path × Event)) (path : Path) : Option Path :=
  (records.map Prod.fst).find? fun other => other.components = path.components

/-- The paths with a record, each in its first spelling and in the order of their components. -/
structure FilesOf (records : List (Path × Event)) (files : List Path) : Prop where
  sorted : files.Pairwise fun path other => path.key < other.key
  mem_iff : ∀ path, path ∈ files ↔ firstSpelling? records path = some path

def logAbout? (records : List (Path × Event)) (path : Path) : Option FileLog :=
  (firstSpelling? records path).map fun first =>
    { path := first, events := kept (eventsAbout records path) }

lemma eventsAbout_eq_nil (h : firstSpelling? records path = none) :
    eventsAbout records path = [] := by
  have hnone : ∀ r ∈ records, ¬ r.1.components = path.components := by
    simpa [firstSpelling?] using h
  rw [eventsAbout, List.filter_eq_nil_iff.mpr (by simpa using hnone), List.map_nil]

/-- Two spellings of a path have the same log. -/
lemma logAbout?_congr {other : Path} (h : path.components = other.components) :
    logAbout? records path = logAbout? records other := by
  rw [logAbout?, logAbout?, firstSpelling?, firstSpelling?, eventsAbout, eventsAbout, h]

lemma logAbout?_concat_same (records : List (Path × Event)) (path : Path) (e : Event) :
    logAbout? (records ++ [(path, e)]) path =
      some (((logAbout? records path).getD { path }).record e) := by
  have hspelling : firstSpelling? (records ++ [(path, e)]) path =
      (firstSpelling? records path).or (some path) := by
    simp [firstSpelling?, List.find?_append]
  have hevents : eventsAbout (records ++ [(path, e)]) path = eventsAbout records path ++ [e] := by
    simp [eventsAbout]
  rw [logAbout?, hspelling, hevents, logAbout?]
  cases hfirst : firstSpelling? records path with
  | none =>
    rw [eventsAbout_eq_nil hfirst]
    exact congrArg some (record_kept path [] e).symm
  | some first => exact congrArg some (record_kept first _ e).symm

lemma logAbout?_concat_other {other : Path} (h : other.components ≠ path.components) (e : Event) :
    logAbout? (records ++ [(other, e)]) path = logAbout? records path := by
  have hspelling : firstSpelling? (records ++ [(other, e)]) path = firstSpelling? records path := by
    simp [firstSpelling?, List.find?_append, h]
  have hevents : eventsAbout (records ++ [(other, e)]) path = eventsAbout records path := by
    simp [eventsAbout, h]
  rw [logAbout?, hspelling, hevents, logAbout?]

/-! ## What a collector holds -/

/-- The collector holds the log of each path that has records, under the key of that path. -/
structure Keeps (records : List (Path × Event)) (c : Collector) : Prop where
  log : ∀ path, c.files.get? path.key = logAbout? records path
  key : ∀ key log, c.files.get? key = some log → log.path.key = key

variable {c : Collector}

lemma keeps_nothing : Keeps [] {} :=
  ⟨fun _ => rfl, fun _ _ h => nomatch h⟩

lemma Keeps.record (h : Keeps records c) (path : Path) (e : Event) :
    Keeps (records ++ [(path, e)]) (c.record path e) := by
  refine ⟨fun other => ?_, fun key log hlog => ?_⟩
  · rw [get?_record, h.log]
    by_cases hpath : other.components = path.components
    · rw [if_pos (key_eq_iff.mpr hpath), logAbout?_congr hpath, logAbout?_concat_same]
    · rw [if_neg (mt key_eq_iff.mp hpath), logAbout?_concat_other (Ne.symm hpath), h.log]
  · rw [get?_record] at hlog
    split_ifs at hlog with hkey
    · -- recording keeps the spelling of a log, and a new log has that of the record
      obtain rfl := Option.some.inj hlog
      have hspelling (log : FileLog) : (log.record e).path = log.path := by
        unfold FileLog.record
        split_ifs <;> rfl
      rw [hspelling, hkey]
      cases hold : c.files.get? path.key with
      | none => rfl
      | some old => exact h.key path.key old hold
    · exact h.key key log hlog

/-- What holds after some calls holds after one more. -/
lemma Keeps.step {calls : List CollectorCall} (h : Keeps (recorded calls) c)
    (call : CollectorCall) : Keeps (recorded (calls ++ [call])) (call.apply c) := by
  rw [recorded_concat]
  cases call with
  | record path e => exact h.record path e
  | begin file =>
    show Keeps (recorded calls ++ []) (c.begin file)
    rw [List.append_nil]
    exact ⟨h.log, h.key⟩
  | clear => exact keeps_nothing

theorem keeps_collected (calls : List CollectorCall) : Keeps (recorded calls) (collected calls) := by
  induction calls using List.reverseRecOn with
  | nil => exact keeps_nothing
  | append_singleton calls call ih =>
    rw [collected, List.foldl_append]
    exact ih.step call

namespace Keeps

lemma events_eq (h : Keeps records c) (path : Path) :
    c.events path = kept (eventsAbout records path) := by
  rw [Collector.events, h.log, logAbout?]
  cases hfirst : firstSpelling? records path with
  | none => rw [eventsAbout_eq_nil hfirst]; rfl
  | some first => rfl

lemma mem_logs_iff (h : Keeps records c) {log : FileLog} :
    log ∈ c.logs ↔ c.files.get? log.path.key = some log := by
  unfold Collector.logs SortedMap.values
  rw [List.mem_map]
  constructor
  · rintro ⟨⟨key, log'⟩, hmem, rfl⟩
    have hget := get?_eq_some_iff.mpr hmem
    rwa [h.key key log' hget]
  · intro hget
    exact ⟨_, get?_eq_some_iff.mp hget, rfl⟩

lemma filesOf (h : Keeps records c) : FilesOf records (c.logs.map FileLog.path) := by
  refine ⟨?_, fun path => ?_⟩
  · rw [Collector.logs, SortedMap.values, List.map_map, List.pairwise_map]
    refine c.files.sorted.imp_of_mem fun {a b} ha hb hlt => ?_
    have hkey (entry : List Text × FileLog) (hentry : entry ∈ c.files.entries) :
        entry.2.path.key = entry.1 :=
      h.key entry.1 entry.2 (get?_eq_some_iff.mpr hentry)
    show a.2.path.key < b.2.path.key
    rwa [hkey a ha, hkey b hb]
  · rw [List.mem_map]
    constructor
    · rintro ⟨log, hlog, rfl⟩
      have hget := h.mem_logs_iff.mp hlog
      rw [h.log, logAbout?] at hget
      obtain ⟨first, hfirst, hlog'⟩ := Option.map_eq_some_iff.mp hget
      rw [hfirst, ← hlog']
    · intro hfirst
      let log : FileLog := { path, events := kept (eventsAbout records path) }
      have hget : c.files.get? log.path.key = some log := by
        rw [h.log, logAbout?, hfirst]
        rfl
      exact ⟨log, h.mem_logs_iff.mpr hget, rfl⟩

/-- A log says no more than its path and the events that are looked up for it. -/
lemma exists_files (h : Keeps records c) : ∃ files, FilesOf records files ∧
    c.logs = files.map fun path => { path, events := c.events path } := by
  have hlog (log : FileLog) (hmem : log ∈ c.logs) :
      { path := log.path, events := c.events log.path } = log := by
    rw [Collector.events, h.mem_logs_iff.mp hmem]
    rfl
  refine ⟨c.logs.map FileLog.path, h.filesOf, ?_⟩
  rw [List.map_map]
  exact ((List.map_congr_left hlog).trans (List.map_id _)).symm

end Keeps

/-! ## Counts -/

/-- The counts of a collector, taken over some files. -/
structure CountsOver (c : Collector) (files : List Path) : Prop where
  size : c.size = (files.map fun path => (c.events path).length).sum
  failedFiles : c.failedFiles = files.filter fun path => c.errors path ≠ []
  total : c.summary.files = files.length
  parts : c.summary.files = c.summary.clean + c.summary.failed + c.summary.warned
  failed : c.summary.failed = c.failedFiles.length
  warned : c.summary.warned = files.countP fun path => c.errors path = [] ∧ c.warnings path ≠ []
  errors : c.summary.errors = (files.map fun path => (c.errors path).length).sum
  warnings : c.summary.warnings = (files.map fun path => (c.warnings path).length).sum
  hasErrors : c.summary.hasErrors = true ↔ 0 < c.summary.failed

/-- Every file is counted once: as failed, as warned or as clean. -/
lemma summary_parts (c : Collector) :
    c.summary.files = c.summary.clean + c.summary.failed + c.summary.warned := by
  unfold Collector.summary
  dsimp only
  induction c.logs with
  | nil => rfl
  | cons log logs ih =>
    simp only [List.length_cons, List.countP_cons, ih]
    cases log.errors.isEmpty <;> cases log.warnings.isEmpty <;> simp <;> omega

/-- There are errors in all if and only if some file has one. -/
lemma hasErrors_iff (c : Collector) : c.summary.hasErrors = true ↔ 0 < c.summary.failed := by
  rw [Summary.hasErrors, decide_eq_true_iff, Collector.summary, List.length_pos_iff, ne_eq,
    List.flatMap_eq_nil_iff, List.countP_pos_iff]
  simp

lemma countsOver_of_logs {files : List Path}
    (h : c.logs = files.map fun path => { path, events := c.events path }) :
    CountsOver c files := by
  have hfailed : c.failedFiles = files.filter fun path => c.errors path ≠ [] := by
    rw [Collector.failedFiles, h, List.filter_map, List.map_map]
    refine (List.map_id _).trans (List.filter_congr fun path _ => ?_)
    rw [Bool.eq_iff_iff]
    simp [Collector.errors]
  refine ⟨?_, hfailed, ?_, summary_parts c, ?_, ?_, ?_, ?_, hasErrors_iff c⟩
  · rw [Collector.size, h, List.flatMap_map, List.length_flatMap]
  · show c.logs.length = _
    rw [h, List.length_map]
  · show (c.logs.countP fun log => !log.errors.isEmpty) = _
    rw [hfailed, h, List.countP_map, ← List.countP_eq_length_filter]
    exact List.countP_congr fun path _ => by simp [FileLog.errors, Collector.errors]
  · show (c.logs.countP fun log => log.errors.isEmpty && !log.warnings.isEmpty) = _
    rw [h, List.countP_map]
    refine List.countP_congr fun path _ => ?_
    simp [FileLog.errors, FileLog.warnings, Collector.errors, Collector.warnings]
  · show (c.logs.flatMap FileLog.errors).length = _
    rw [h, List.flatMap_map, List.length_flatMap]
    rfl
  · show (c.logs.flatMap FileLog.warnings).length = _
    rw [h, List.flatMap_map, List.length_flatMap]
    rfl

/-- Whatever is done to a new collector: it keeps of each path what was recorded for it since it was
last cleared, up to the limit, and all its counts are counts over the paths with a record. -/
theorem collector_by_file (calls : List CollectorCall) :
    let c := collected calls
    let records := recorded calls
    (∀ path, c.events path = kept (eventsAbout records path) ∧
      c.errors path = (kept (eventsAbout records path)).filter Event.isError ∧
      c.warnings path = (kept (eventsAbout records path)).filter Event.isWarning) ∧
    ∃ files, FilesOf records files ∧ CountsOver c files := by
  intro c records
  have hkeeps : Keeps records c := keeps_collected calls
  obtain ⟨files, hfiles, hlogs⟩ := hkeeps.exists_files
  refine ⟨fun path => ?_, files, hfiles, countsOver_of_logs hlogs⟩
  rw [Collector.errors, Collector.warnings, hkeeps.events_eq]
  exact ⟨rfl, rfl, rfl⟩

end TestCatalog.Proofs
