import TestCatalog.Proofs.Journals
import TestCatalog.Proofs.Maps

/-!
# Collected findings

A desk collects the findings that are reported while a file is the current one under that file, up
to the limit, and no others. Where the pieces of a woven journal are about different files, each
file has the findings of its own piece.
-/

namespace TestCatalog.Proofs

/-! ## Logs of files -/

/-- What is kept of the events that are recorded for one file. -/
def kept (events : List Event) : List Event :=
  events.take Limits.eventsPerFile ++
    if Limits.eventsPerFile < events.length then [FileLog.overflow] else []

lemma kept_of_le {events : List Event} (h : events.length ≤ Limits.eventsPerFile) :
    kept events = events := by
  rw [kept, if_neg (Nat.not_lt.mpr h), List.append_nil, List.take_of_length_le h]

lemma kept_of_lt {events : List Event} (h : Limits.eventsPerFile < events.length) :
    kept events = events.take Limits.eventsPerFile ++ [FileLog.overflow] := by
  rw [kept, if_pos h]

/-- The events beyond the limit leave one marker behind those that are kept: a warning with the code
W004. -/
lemma exists_marker {events : List Event} (h : Limits.eventsPerFile < events.length) :
    ∃ marker : Event, kept events = events.take Limits.eventsPerFile ++ [marker] ∧
      marker.level = .warning ∧ marker.code.id = "W004" :=
  ⟨FileLog.overflow, kept_of_lt h, rfl, rfl⟩

lemma record_kept (path : Path) (events : List Event) (e : Event) :
    FileLog.record { path, events := kept events } e =
      { path, events := kept (events ++ [e]) } := by
  have hlength : (events ++ [e]).length = events.length + 1 := List.length_append
  unfold FileLog.record
  dsimp only
  rcases Nat.lt_trichotomy events.length Limits.eventsPerFile with hlt | heq | hgt
  · rw [kept_of_le (by omega), if_pos hlt, kept_of_le (by omega)]
  · have htake : (events ++ [e]).take Limits.eventsPerFile = events := by
      rw [← heq, List.take_left]
    rw [kept_of_le (by omega), if_neg (by omega), if_pos heq, kept_of_lt (by omega), htake]
  · have hkept : (kept events).length = Limits.eventsPerFile + 1 := by
      rw [kept_of_lt hgt, List.length_append, List.length_take_of_le (by omega)]
      rfl
    have htake : (events ++ [e]).take Limits.eventsPerFile = events.take Limits.eventsPerFile :=
      List.take_append_of_le_length (by omega)
    have hmore : kept (events ++ [e]) = kept events := by
      rw [kept_of_lt (by omega), htake, kept_of_lt hgt]
    rw [if_neg (by omega), if_neg (by omega), hmore]

lemma foldl_record_kept (path : Path) (before events : List Event) :
    events.foldl FileLog.record { path, events := kept before } =
      { path, events := kept (before ++ events) } := by
  induction events generalizing before with
  | nil => rw [List.append_nil, List.foldl_nil]
  | cons e events ih =>
    rw [List.foldl_cons, record_kept, ih, List.append_assoc, List.singleton_append]

theorem foldl_record (path : Path) (events : List Event) :
    events.foldl FileLog.record { path } = { path, events := kept events } :=
  foldl_record_kept path [] events

/-! ## The collector -/

/-- Records events for one file, one after another. -/
def recordAll (c : Collector) (path : Path) (events : List Event) : Collector :=
  events.foldl (fun c e => c.record path e) c

lemma get?_record (c : Collector) (path : Path) (e : Event) (key : List Text) :
    (c.record path e).files.get? key =
      if key = path.key then some (((c.files.get? path.key).getD { path }).record e)
      else c.files.get? key :=
  get?_insert ..

lemma get?_recordAll (c : Collector) (path : Path) (events : List Event) (key : List Text) :
    (recordAll c path events).files.get? key =
      if key = path.key ∧ events ≠ [] then
        some (events.foldl FileLog.record ((c.files.get? path.key).getD { path }))
      else c.files.get? key := by
  induction events generalizing c with
  | nil => simp [recordAll]
  | cons e events ih =>
    have hcons : recordAll c path (e :: events) = recordAll (c.record path e) path events := rfl
    rw [hcons, ih, get?_record, get?_record]
    by_cases hkey : key = path.key
    · by_cases hevents : events = []
      · simp [hkey, hevents]
      · simp [hkey, hevents]
    · simp [hkey]

lemma mem_failedFiles {c : Collector} {path : Path} : path ∈ c.failedFiles ↔
    ∃ key log, c.files.get? key = some log ∧ log.path = path ∧ log.events.any Event.isError := by
  unfold Collector.failedFiles Collector.logs SortedMap.values
  simp only [List.mem_map, List.mem_filter, get?_eq_some_iff]
  constructor
  · rintro ⟨log, ⟨⟨⟨key, log'⟩, hmem, rfl⟩, herror⟩, hpath⟩
    exact ⟨key, _, hmem, hpath, herror⟩
  · rintro ⟨key, log, hmem, hpath, herror⟩
    exact ⟨log, ⟨⟨(key, log), hmem, rfl⟩, herror⟩, hpath⟩

/-! ## Desks -/

variable {α : Type} [Logger α]

/-- The event as a desk collects it while the file is the current one. -/
def attached (attachesFile : Bool) (file : FileContext) (e : Event) : Event :=
  if attachesFile then
    e.withDetails [("file", file.path.spelling), ("file_id", Text.ofNat file.id)]
  else e

lemma isFinding_attached (attachesFile : Bool) (file : FileContext) (e : Event) :
    (attached attachesFile file e).isFinding = e.isFinding := by
  unfold attached
  split <;> rfl

lemma isError_attached (attachesFile : Bool) (file : FileContext) (e : Event) :
    (attached attachesFile file e).isError = e.isError := by
  unfold attached
  split <;> rfl

lemma replay_append (desk : Desk α) (journal journal' : Journal) :
    desk.replay (journal ++ journal') = (desk.replay journal).replay journal' :=
  List.foldl_append

lemma collector_report {desk : Desk α} {file : FileContext} (h : desk.current = some file)
    (e : Event) : (desk.report e).collector =
      if e.isFinding then desk.collector.record file.path (attached desk.attachesFile file e)
      else desk.collector := by
  have hattach : desk.attach e = attached desk.attachesFile file e := by
    rw [Desk.attach, h]
    rfl
  unfold Desk.report
  simp only [h, hattach, isFinding_attached]

/-- While a file is the current one its findings are collected. -/
lemma replay_reports {desk : Desk α} {file : FileContext} (h : desk.current = some file)
    (events : List Event) :
    let after := desk.replay (events.map .report)
    after.current = some file ∧ after.attachesFile = desk.attachesFile ∧
      after.collector = recordAll desk.collector file.path
        ((events.filter Event.isFinding).map (attached desk.attachesFile file)) := by
  induction events generalizing desk with
  | nil => exact ⟨h, rfl, rfl⟩
  | cons e events ih =>
    have hnext : (desk.report e).current = some file := h
    obtain ⟨hcurrent, hattaches, hcollector⟩ := ih hnext
    refine ⟨hcurrent, hattaches, ?_⟩
    show ((desk.report e).replay (events.map .report)).collector = _
    rw [hcollector, collector_report h]
    by_cases hfinding : e.isFinding = true
    · rw [if_pos hfinding, List.filter_cons_of_pos hfinding]
      rfl
    · rw [if_neg hfinding, List.filter_cons_of_neg hfinding]
      rfl

/-- Work on a file that does nothing but report. -/
structure FileWork where
  file : FileContext
  events : List Event

namespace FileWork

def key (work : FileWork) : List Text :=
  work.file.path.key

def findings (work : FileWork) : List Event :=
  work.events.filter Event.isFinding

def journal (work : FileWork) : Journal :=
  .enter work.file :: work.events.map .report ++ [.leave]

/-- The log that a desk collects of the work, if it has findings. -/
def log? (attachesFile : Bool) (work : FileWork) : Option FileLog :=
  if work.findings = [] then none
  else some ⟨work.file.path, kept (work.findings.map (attached attachesFile work.file))⟩

end FileWork

lemma replay_work (desk : Desk α) (work : FileWork)
    (hfresh : desk.collector.files.get? work.key = none) :
    let after := desk.replay work.journal
    after.current = none ∧ after.attachesFile = desk.attachesFile ∧
      ∀ key, after.collector.files.get? key =
        if key = work.key then work.log? desk.attachesFile else desk.collector.files.get? key := by
  have hentered : (desk.apply (.enter work.file)).current = some work.file := rfl
  obtain ⟨-, hattaches, hcollector⟩ := replay_reports hentered work.events
  intro after
  have hafter : after =
      ((desk.apply (.enter work.file)).replay (work.events.map .report)).apply .leave :=
    replay_append _ _ [.leave]
  have hcollected : after.collector = recordAll (desk.collector.begin work.file) work.file.path
      (work.findings.map (attached desk.attachesFile work.file)) := by
    rw [hafter]
    exact hcollector
  refine ⟨by rw [hafter]; rfl, by rw [hafter]; exact hattaches, fun key => ?_⟩
  have hbegun : (desk.collector.begin work.file).files.get? work.file.path.key = none := hfresh
  rw [hcollected, get?_recordAll, hbegun, Option.getD_none, foldl_record]
  unfold FileWork.log?
  by_cases hkey : key = work.key
  · by_cases hfindings : work.findings = []
    · rw [if_neg (by simp [hfindings]), if_pos hkey, if_pos hfindings, hkey]
      exact hfresh
    · rw [if_pos ⟨hkey, by simpa using hfindings⟩, if_pos hkey, if_neg hfindings]
  · rw [if_neg fun h => hkey h.1, if_neg hkey]
    rfl

/-- Each file has the log of its own work. -/
theorem replay_works {works : List FileWork} {journal : Journal}
    (h : Woven (works.map FileWork.journal) journal) (hkeys : (works.map FileWork.key).Nodup)
    {desk : Desk α} (hcurrent : desk.current = none)
    (hfresh : ∀ work ∈ works, desk.collector.files.get? work.key = none) :
    let after := (desk.replay journal).collector.files
    (∀ work ∈ works, after.get? work.key = work.log? desk.attachesFile) ∧
      ∀ key ∉ works.map FileWork.key, after.get? key = desk.collector.files.get? key := by
  generalize hpieces : works.map FileWork.journal = pieces at h
  induction h generalizing works desk with
  | nil =>
    obtain rfl := List.map_eq_nil_iff.mp hpieces
    exact ⟨by simp, fun _ _ => rfl⟩
  | report e below ih =>
    -- no file is the current one, so that nothing is collected
    have hcollector : (desk.apply (.report e)).collector = desk.collector := by
      simp only [Desk.apply, Desk.report, hcurrent]
    have hcurrent' : (desk.apply (.report e)).current = none := hcurrent
    obtain ⟨hlogs, hothers⟩ := ih hkeys hcurrent' (by rwa [hcollector]) hpieces
    rw [hcollector] at hothers
    exact ⟨hlogs, hothers⟩
  | piece piece below ih =>
    obtain ⟨work, works, rfl, rfl, rfl⟩ := List.map_eq_cons_iff.mp hpieces
    obtain ⟨hfirst, hrest⟩ := List.nodup_cons.mp hkeys
    obtain ⟨hcurrent', hattaches, hwork⟩ :=
      replay_work desk work (hfresh work List.mem_cons_self)
    have hne (other : FileWork) (hother : other ∈ works) : other.key ≠ work.key := by
      intro heq
      exact hfirst (heq ▸ List.mem_map_of_mem hother)
    have hfresh' (other : FileWork) (hother : other ∈ works) :
        (desk.replay work.journal).collector.files.get? other.key = none := by
      rw [hwork, if_neg (hne other hother)]
      exact hfresh other (List.mem_cons_of_mem work hother)
    obtain ⟨hlogs, hothers⟩ := ih hrest hcurrent' hfresh' rfl
    rw [hattaches] at hlogs
    rw [replay_append]
    refine ⟨fun other hother => ?_, fun key hkey => ?_⟩
    · rcases List.mem_cons.mp hother with rfl | hother
      · rw [hothers _ hfirst, hwork, if_pos rfl]
      · exact hlogs other hother
    · rw [List.map_cons, List.mem_cons, not_or] at hkey
      rw [hothers key hkey.2, hwork, if_neg hkey.1]

lemma any_isError_kept (events : List Event) :
    (kept events).any Event.isError = (events.take Limits.eventsPerFile).any Event.isError := by
  rcases Nat.lt_or_ge Limits.eventsPerFile events.length with hmany | hfew
  · obtain ⟨marker, hkept, hlevel, -⟩ := exists_marker hmany
    have hmarker : marker.isError = false := by
      rw [Event.isError, hlevel]
      rfl
    rw [hkept, List.any_append, List.any_cons, List.any_nil, hmarker, Bool.or_false, Bool.or_false]
  · rw [kept_of_le hfew, List.take_of_length_le hfew]

/-- On a desk without findings, the failed files are those with an error that is kept. -/
theorem mem_failedFiles_replay {works : List FileWork} {journal : Journal}
    (h : Woven (works.map FileWork.journal) journal) (hkeys : (works.map FileWork.key).Nodup)
    {desk : Desk α} (hcurrent : desk.current = none) (hempty : desk.collector = {}) (path : Path) :
    path ∈ (desk.replay journal).collector.failedFiles ↔ ∃ work ∈ works, work.file.path = path ∧
      (work.findings.take Limits.eventsPerFile).any Event.isError := by
  have hnone (key : List Text) : desk.collector.files.get? key = none := by
    rw [hempty]
    rfl
  obtain ⟨hlogs, hothers⟩ := replay_works h hkeys hcurrent fun work _ => hnone work.key
  have hany (work : FileWork) :
      (kept (work.findings.map (attached desk.attachesFile work.file))).any Event.isError =
        (work.findings.take Limits.eventsPerFile).any Event.isError := by
    rw [any_isError_kept, ← List.map_take, List.any_map]
    congr 1
    funext e
    exact isError_attached _ _ e
  rw [mem_failedFiles]
  constructor
  · rintro ⟨key, log, hlog, rfl, herror⟩
    by_cases hkey : key ∈ works.map FileWork.key
    · obtain ⟨work, hwork, rfl⟩ := List.mem_map.mp hkey
      rw [hlogs work hwork, FileWork.log?] at hlog
      split_ifs at hlog with hfindings
      cases hlog
      exact ⟨work, hwork, rfl, hany work ▸ herror⟩
    · rw [hothers key hkey, hnone] at hlog
      cases hlog
  · rintro ⟨work, hwork, rfl, herror⟩
    have hfindings : work.findings ≠ [] := by
      intro hnil
      rw [hnil] at herror
      cases herror
    have hlog := hlogs work hwork
    rw [FileWork.log?, if_neg hfindings] at hlog
    exact ⟨work.key, _, hlog, rfl, (hany work).trans herror⟩

end TestCatalog.Proofs
