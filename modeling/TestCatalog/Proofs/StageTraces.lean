import TestCatalog.Proofs.CutMessages
import TestCatalog.Proofs.Maps
import TestCatalog.Proofs.ModePartition
import TestCatalog.Proofs.PlainTables
import TestCatalog.Proofs.ReportedFailures

/-!
# Traces of the assembler

A log that takes all events shows how far the assembler came: the stages of each case in the order
of the headers, the cases that were assembled, and at the end either the counts of the block or the
error in which its last case stopped.
-/

namespace TestCatalog.Proofs

/-! ## Milestones -/

/-- What an event says of the progress of assembling, as far as its details tell. -/
inductive Milestone where
  /-- A case passed from one stage to another. -/
  | passed (case origin target : Option Text)
  /-- A case was assembled. -/
  | emitted (case globalId steps : Option Text)
  /-- A block was assembled. -/
  | closed (added updated warnings : Option Text)
  | failed (code : Code) (message : Text)

/-- Errors are told by their level, the ends of cases and blocks by their codes, and transitions by
their message. -/
def milestone? (e : Event) : Option Milestone :=
  if e.isError then some (.failed e.code e.message)
  else if e.code = .caseAssembled then
    some (.emitted (e.context.get? "case") (e.context.get? "global_id") (e.context.get? "steps"))
  else if e.code = .blockAssembled then
    some (.closed (e.context.get? "added") (e.context.get? "updated") (e.context.get? "warnings"))
  else if e.level = .debug ∧ e.message = "Assembly stage transition" then
    some (.passed (e.context.get? "case") (e.context.get? "from") (e.context.get? "to"))
  else none

/-- The milestones that are reported. -/
def trace (journal : Journal) : List Milestone :=
  (reported journal).filterMap milestone?

/-- The stages from the header of a case to the header of the next. -/
def stages : List Stage :=
  [.caseHeaderFound, .descriptionRead, .prerequisitesRead, .testDataRead, .stepsRead, .projectsRead,
    .emit, .scanning]

/-- A case passes from each stage to the next. -/
def chain (case : Text) : List Milestone :=
  List.zipWith (fun origin target => .passed (some case) (some origin.name) (some target.name))
    stages stages.tail

/-- A case that is assembled passes all stages. -/
def caseTrace (case : TestCase) : List Milestone :=
  chain case.name ++
    [.emitted (some case.name) (some case.globalId) (some (Text.ofNat case.steps.length))]

/-! ## Milestones of events -/

lemma milestone?_transition (case : Text) (origin target : Stage) :
    milestone? (Stage.transition case origin target) =
      some (.passed (some case) (some origin.name) (some target.name)) := rfl

lemma milestone?_assembled (case : TestCase) : milestone? (Assembler.assembled case) =
    some (.emitted (some case.name) (some case.globalId) (some (Text.ofNat case.steps.length))) :=
  rfl

lemma milestone?_finished (cases : ParsedCases) : milestone? (Assembler.finished cases) =
    some (.closed (some (Text.ofNat cases.added.length)) (some (Text.ofNat cases.updated.length))
      (some (Text.ofNat cases.warnings.length))) := rfl

/-- The message of an error is reported as far as events carry it. -/
lemma milestone?_failed (header : Text) (e : GrammarError) (line : ℕ) :
    milestone? (Assembler.failed header e line) =
      some (.failed e.code (Text.truncate Limits.messageBytes e.message)) := rfl

lemma milestone?_started (a : Assembler) (c : Cursor) : milestone? (a.started c) = none := rfl

lemma Incidental.milestone? {e : Event} (h : Incidental e) : milestone? e = none := by
  have herror := h.isError
  unfold Proofs.milestone?
  cases h with
  | table hlevel hcode hmessage =>
    rw [herror, hcode, hmessage]
    simp +decide
  | warning hlevel hcode =>
    rw [herror, hlevel]
    rcases hcode with hcode | hcode <;> rw [hcode] <;> simp +decide

/-- The file that a desk attaches to an event is none of the details of a milestone. -/
lemma milestone?_attach {α : Type} (desk : Desk α) (e : Event) :
    milestone? (desk.attach e) = milestone? e := by
  unfold Desk.attach
  split
  · rename_i file _
    split_ifs
    · have hother (key : Text) (h : key ≠ "file") (h' : key ≠ "file_id") : (e.withDetails
          [("file", file.path.spelling), ("file_id", Text.ofNat file.id)]).context.get? key =
            e.context.get? key := by
        show ((e.context.insert "file" file.path.spelling).insert "file_id" _).get? key = _
        rw [get?_insert, if_neg h', get?_insert, if_neg h]
      simp only [milestone?, Event.isError, level_withDetails, code_withDetails,
        message_withDetails]
      rw [hother "case" (by decide) (by decide), hother "global_id" (by decide) (by decide),
        hother "steps" (by decide) (by decide), hother "added" (by decide) (by decide),
        hother "updated" (by decide) (by decide), hother "warnings" (by decide) (by decide),
        hother "from" (by decide) (by decide), hother "to" (by decide) (by decide)]
      rfl
    · rfl
  · rfl

/-! ## Traces of readers -/

lemma trace_append (journal journal' : Journal) :
    trace (journal ++ journal') = trace journal ++ trace journal' := by
  rw [trace, reported_append, List.filterMap_append]
  rfl

lemma trace_reports (events : List Event) :
    trace (events.map .report) = events.filterMap milestone? := by
  have hreported : reported (events.map .report) = events := by
    rw [reported, List.filterMap_map]
    exact List.filterMap_some
  rw [trace, hreported]

lemma trace_of_incidental {journal : Journal} (h : OnlyReports Incidental journal) :
    trace journal = [] :=
  List.filterMap_eq_nil_iff.mpr fun e he => (h.of_mem_reported e he).milestone?

section Readers

variable {α β : Type} {all : List Milestone} {n : ℕ}

/-- The reader passes all milestones if it succeeds, and only some of the first `n` if it fails. -/
def Passing (all : List Milestone) (n : ℕ) (r : Reader α) : Prop :=
  ∀ c, match (r c).result with
    | .ok _ => trace (r c).journal = all
    | .error _ => ∃ k ≤ n, trace (r c).journal = all.take k

lemma passing_bind_of_incidental {r : Reader α} {f : α → Reader β} (hr : Notes Incidental r)
    (hf : ∀ a, Passing all n (f a)) : Passing all n (r >>= f) := by
  intro c
  have hquiet := trace_of_incidental (hr c)
  cases hresult : (r c).result with
  | error e =>
    rw [(bind_of_error f hresult).1, journal_bind_of_error f hresult]
    exact ⟨0, n.zero_le, hquiet⟩
  | ok a =>
    have hrest := hf a (r c).cursor
    rw [(bind_of_ok f hresult).1, journal_bind_of_yields ⟨hresult, rfl⟩, trace_append, hquiet,
      List.nil_append]
    exact hrest

lemma passing_note_bind {e : Event} {m : Milestone} (he : milestone? e = some m)
    {f : Unit → Reader β} (hf : Passing all n (f ())) :
    Passing (m :: all) (n + 1) (Reader.note e >>= f) := by
  intro c
  have hnote : trace (Reader.note e c).journal = [m] := List.filterMap_cons_some he
  have hresult : ((Reader.note e >>= f) c).result = (f () c).result := (bind_of_ok f rfl).1
  have hrest := hf c
  rw [hresult, journal_bind_of_yields (yields_note e c), trace_append, hnote]
  cases hend : (f () c).result with
  | ok b =>
    rw [hend] at hrest
    exact congrArg (m :: ·) hrest
  | error error =>
    rw [hend] at hrest
    obtain ⟨k, hk, htake⟩ := hrest
    exact ⟨k + 1, Nat.succ_le_succ hk, congrArg (m :: ·) htake⟩

lemma passing_noteAll_pure {events : List Event} (h : events.filterMap milestone? = all) (b : β) :
    Passing all n (Reader.noteAll events >>= fun _ => pure b) := by
  intro c
  have hnote : trace (Reader.noteAll events c).journal = all := (trace_reports events).trans h
  rw [journal_bind_of_yields (yields_noteAll events c), trace_append, hnote]
  exact List.append_nil all

/-- A body that is read passes all stages; a body that is refused is refused before the projects
are read. -/
theorem passing_readBody (config : SyncConfig) (d : Dialect) (header name : Text) :
    Passing (chain name) 4 (CaseBody.read config d header name) :=
  passing_bind_of_incidental (notes_expectOpening _ _ _) fun _ =>
    passing_bind_of_incidental (notes_readSection _ _) fun _ =>
    passing_note_bind (milestone?_transition _ _ _) <|
    passing_bind_of_incidental (notes_readSection _ _) fun _ =>
    passing_note_bind (milestone?_transition _ _ _) <|
    passing_bind_of_incidental (notes_readSection _ _) fun _ =>
    passing_note_bind (milestone?_transition _ _ _) <|
    passing_bind_of_incidental (notes_readSteps _) fun _ =>
    passing_note_bind (milestone?_transition _ _ _) <|
    passing_bind_of_incidental (notes_readProjects _ _ _) fun _ =>
    passing_noteAll_pure rfl _

end Readers

/-! ## Traces of blocks -/

variable {a : Assembler} {c : Cursor} {ps : List Passage}

lemma trace_assembled_cons (case : TestCase) (journal : Journal) :
    trace (.report (Assembler.assembled case) :: journal) = [.emitted (some case.name)
      (some case.globalId) (some (Text.ofNat case.steps.length))] ++ trace journal :=
  List.filterMap_cons_some (milestone?_assembled case)

/-- The passages of a block are read one after the other, each through all stages. -/
lemma trace_of_passages (h : Passages a c ps) :
    trace (a.readCases c).journal = ps.flatMap fun p => caseTrace (p.case a) := by
  induction h with
  | done n =>
    rw [Assembler.readCases]
    rfl
  | skip hkind below ih => rwa [readCases_below hkind]
  | @take n line x y kind body ps hkind hbody below ih =>
    have hpassed := passing_readBody a.config a.dialect (Text.trim line)
      (a.dialect.nameOfHeader (Text.trim line)) ⟨n + 1, x ++ y⟩
    rw [← bodyBelow, hbody.1] at hpassed
    rw [readCases_take hkind hbody, trace_append, hpassed, trace_assembled_cons, ih,
      List.flatMap_cons, ← List.append_assoc]
    rfl

/-- A block that cannot be assembled is read up to a header: the passages above it go through all
stages, its own case through some of the first four. -/
lemma trace_of_error (c : Cursor) {e : GrammarError} (h : (a.readCases c).result = .error e) :
    ∃ above line below ps k before number, c.rest = above ++ line :: below ∧
      Passages a ⟨c.lineNumber, above⟩ ps ∧ (a.kindOfHeader? (Text.trim line)).isSome ∧ k ≤ 4 ∧
      (a.readCases c).journal =
        before ++ [.report (Assembler.failed (Text.trim line) e number)] ∧
      trace before = (ps.flatMap fun p => caseTrace (p.case a)) ++
        (chain (a.dialect.nameOfHeader (Text.trim line))).take k := by
  induction c using readCases_induction a with
  | nil n =>
    rw [readCases_nil] at h
    cases h
  | skip n line rest hkind ih =>
    rw [readCases_below hkind] at h ⊢
    obtain ⟨above, header, below, ps, k, before, number, hrest, hps, hrefused⟩ := ih h
    exact ⟨line :: above, header, below, ps, k, before, number, congrArg (line :: ·) hrest,
      .skip hkind hps, hrefused⟩
  | fail n line rest kind e' hkind hbody =>
    rw [readCases_of_error hkind hbody] at h
    cases h
    have hpassed := passing_readBody a.config a.dialect (Text.trim line)
      (a.dialect.nameOfHeader (Text.trim line)) ⟨n + 1, rest⟩
    rw [← bodyBelow, hbody] at hpassed
    obtain ⟨k, hk, htake⟩ := hpassed
    have hheader : (a.kindOfHeader? (Text.trim line)).isSome := by
      rw [hkind]
      rfl
    rw [readCases_fail hkind hbody]
    exact ⟨[], line, rest, [], k, _, _, rfl, .done n, hheader, hk, rfl, htake⟩
  | take n line x y kind body hkind hbody ih =>
    have hpassed := passing_readBody a.config a.dialect (Text.trim line)
      (a.dialect.nameOfHeader (Text.trim line)) ⟨n + 1, x ++ y⟩
    rw [← bodyBelow, hbody.1] at hpassed
    rw [readCases_take hkind hbody] at h ⊢
    obtain ⟨above, header, below, ps, k, before, number, hrest, hps, hheader, hk, hjournal, htrace⟩ :=
      ih (eq_error_of_map h)
    have hrest : y = above ++ header :: below := hrest
    let case := takenCase a kind (Text.trim line) body
    -- the body ends with its projects line, so that it is read without the lines below the passages
    have hpassage : Passages a ⟨n, line :: (x ++ above)⟩ (⟨n, kind, Text.trim line, x, body⟩ :: ps) :=
      .take hkind (yields_body_elsewhere hbody (n + 1) above) hps
    refine ⟨line :: (x ++ above), header, below, ⟨n, kind, Text.trim line, x, body⟩ :: ps, k,
      (bodyBelow a (Text.trim line) ⟨n + 1, x ++ y⟩).journal ++
        .report (Assembler.assembled case) :: before, number, ?_, hpassage, hheader, hk, ?_, ?_⟩
    · rw [hrest, List.cons_append, List.append_assoc]
    · rw [hjournal, List.append_assoc, List.cons_append]
    · rw [trace_append, hpassed, trace_assembled_cons, htrace, List.flatMap_cons,
        ← List.append_assoc, ← List.append_assoc]
      rfl

/-! ## Logs of blocks -/

lemma assemble_of_error {block : Text} {e : GrammarError} {c : Cursor} {journal : Journal}
    (h : a.readCases (.ofText block) = ⟨.error e, c, journal⟩) : a.assemble block =
      { value := .error e, journal := .report (a.started (.ofText block)) :: journal } := by
  unfold Assembler.assemble
  dsimp only
  rw [h, List.append_nil]

lemma onlyReports_assemble (a : Assembler) (block : Text) :
    OnlyReports (fun _ => True) (a.assemble block).journal := by
  have hcandid : Candid (a.assemble block).value (a.assemble block).journal :=
    candid_assemble a block
  generalize (a.assemble block).value = value at hcandid
  generalize (a.assemble block).journal = journal at hcandid
  cases hcandid with
  | ok _ h => exact OnlyReports.mono h fun _ _ => trivial
  | error _ h _ =>
    exact (OnlyReports.mono h fun _ _ => trivial).append (onlyReports_single trivial)

/-- A service at the lowest level passes the events of a journal on in their order. -/
lemma logger_replay {α : Type} [Logger α] {desk : Desk α} (h : desk.log.minLevel = .debug)
    (events : List Event) : (desk.replay (events.map .report)).log.logger =
      (events.map desk.attach).foldl Logger.log desk.log.logger := by
  induction events generalizing desk with
  | nil => rfl
  | cons e events ih =>
    have hlog : (desk.report e).log =
        { desk.log with logger := Logger.log desk.log.logger (desk.attach e) } := by
      show desk.log.log (desk.attach e) = _
      unfold LogService.log LogService.shouldLog
      rw [if_pos (by rw [h]; cases (desk.attach e).level <;> rfl)]
    have hlevel : (desk.report e).log.minLevel = .debug := by rw [hlog, h]
    show ((desk.report e).replay (events.map .report)).log.logger = _
    rw [ih hlevel, hlog]
    rfl

/-- Whatever takes in all events sees each case of a block go through all stages, one case after
the other in the order of their headers, and be assembled with its identifier and its steps. It ends
with the counts of the block, or else with the first error: then the last case went through some of
the first four stages. -/
theorem assembly_traced (a : Assembler) (block : Text) (current : Option FileContext)
    (attachesFile : Bool) :
    ∃ before last,
      (∀ {α : Type} [Logger α] (logger : α) (collector : Collector),
        let desk : Desk α :=
          { log := { minLevel := .debug, logger }, collector, current, attachesFile }
        (desk.replay (a.assemble block).journal).log.logger =
          (before ++ [last]).foldl Logger.log logger) ∧
      match (a.assemble block).value with
      | .ok cases => ∃ ps, Passages a (.ofText block) ps ∧
          cases = .concat (ps.map (Passage.parsed a)) ∧
          before.filterMap milestone? = (ps.flatMap fun p => caseTrace (p.case a)) ∧
          milestone? last = some (.closed (some (Text.ofNat cases.added.length))
            (some (Text.ofNat cases.updated.length)) (some (Text.ofNat cases.warnings.length)))
      | .error e => ∃ above line below ps k, blockLines block = above ++ line :: below ∧
          Passages a ⟨0, above⟩ ps ∧ (a.kindOfHeader? (Text.trim line)).isSome ∧ k ≤ 4 ∧
          before.filterMap milestone? = (ps.flatMap fun p => caseTrace (p.case a)) ++
            (chain (a.dialect.nameOfHeader (Text.trim line))).take k ∧
          milestone? last =
            some (.failed e.code (Text.truncate Limits.messageBytes e.message)) := by
  have hlogged (journal : Journal) (e : Event)
      (h : (a.assemble block).journal = journal ++ [.report e]) :
      ∃ before last,
        (∀ {α : Type} [Logger α] (logger : α) (collector : Collector),
          let desk : Desk α :=
            { log := { minLevel := .debug, logger }, collector, current, attachesFile }
          (desk.replay (a.assemble block).journal).log.logger =
            (before ++ [last]).foldl Logger.log logger) ∧
        before.filterMap milestone? = trace journal ∧ milestone? last = milestone? e := by
    have hevents := (onlyReports_assemble a block).map_reported
    -- what is attached to an event does not depend on where the events go
    let desk : Desk (List Event) :=
      { log := { minLevel := .debug, logger := [] }, current, attachesFile }
    refine ⟨(reported journal).map desk.attach, desk.attach e, fun logger collector => ?_, ?_,
      milestone?_attach desk e⟩
    · dsimp only
      rw [← hevents, logger_replay rfl, h, reported_append, List.map_append]
      rfl
    · rw [List.filterMap_map]
      exact List.filterMap_congr fun e _ => milestone?_attach desk e
  have hstarted (journal : Journal) :
      trace (.report (a.started (.ofText block)) :: journal) = trace journal :=
    List.filterMap_cons_none (milestone?_started a (.ofText block))
  cases hvalue : (a.assemble block).value with
  | ok cases =>
    obtain ⟨ps, hps, hcases⟩ := assemble_eq_ok_iff_passages.mp hvalue
    have hresult : (a.readCases (.ofText block)).result = .ok cases := hvalue
    have hend : (a.assemble block).journal = (.report (a.started (.ofText block)) ::
        (a.readCases (.ofText block)).journal) ++ [.report (Assembler.finished cases)] := by
      unfold Assembler.assemble
      dsimp only
      rw [hresult]
    obtain ⟨before, last, hpassed, hbefore, hlast⟩ := hlogged _ _ hend
    refine ⟨before, last, hpassed, ps, hps, hcases, ?_, hlast.trans (milestone?_finished cases)⟩
    rw [hbefore, hstarted, trace_of_passages hps]
  | error e =>
    have hresult : (a.readCases (.ofText block)).result = .error e := hvalue
    obtain ⟨above, line, below, ps, k, journal, number, hlines, hps, hkind, hk, hjournal, htrace⟩ :=
      trace_of_error _ hresult
    have hend : (a.assemble block).journal = (.report (a.started (.ofText block)) :: journal) ++
        [.report (Assembler.failed (Text.trim line) e number)] := by
      unfold Assembler.assemble
      dsimp only
      rw [hresult, hjournal, List.append_nil]
      rfl
    obtain ⟨before, last, hpassed, hbefore, hlast⟩ := hlogged _ _ hend
    refine ⟨before, last, hpassed, above, line, below, ps, k, hlines, hps, hkind, hk, ?_,
      hlast.trans (milestone?_failed _ _ _)⟩
    rw [hbefore, hstarted, htrace]

/-! ## A message that is cut -/

/-- A text that is longer than what remains after a cut does not stay whole. -/
lemma truncate_ne {limit : ℕ} {t : Text} (h : limit + 3 < t.length) :
    Text.truncate limit t ≠ t := by
  have hcut := utf8Size_truncate_le limit t
  have hsize := (utf8Size_bounds t).1
  intro heq
  rw [heq] at hcut
  omega

/-- The header of a case without any documentation. -/
def longHeader (n : ℕ) : Text :=
  "<NEW>: " ++ List.replicate (n + 1) 'x'

lemma bareEnds_longHeader (n : ℕ) : BareEnds (longHeader n) := by
  have hlast : (longHeader n).getLast? = some 'x' := by
    unfold longHeader
    rw [List.getLast?_append, List.getLast?_replicate]
    rfl
  refine ⟨fun c hc => ?_, fun c hc => ?_⟩
  · obtain rfl : '<' = c := Option.some.inj hc
    rfl
  · rw [hlast] at hc
    obtain rfl : 'x' = c := Option.some.inj hc
    rfl

def longError (n : ℕ) : GrammarError :=
  .missingDocumentationMarker (longHeader n)

lemma readCases_longHeader (n : ℕ) :
    (orderAssembler .both).readCases (.ofText (terminated [longHeader n])) =
      { result := .error (longError n)
        cursor := ⟨1, []⟩
        journal := [.report (Assembler.failed (longHeader n) (longError n) 1)] } := by
  have htrim : Text.trim (longHeader n) = longHeader n := trim_eq_self (bareEnds_longHeader n)
  have hcursor : Cursor.ofText (terminated [longHeader n]) = ⟨0, [longHeader n]⟩ := by
    have hnewline : '\n' ∉ longHeader n := by
      unfold longHeader
      rw [List.mem_append, not_or]
      exact ⟨by decide, fun h => absurd (List.eq_of_mem_replicate h) (by decide)⟩
    rw [ofText_eq, blockLines_terminated (by simpa using hnewline), List.map_singleton,
      trimEnd_eq_self (bareEnds_longHeader n).2]
  have hkind : (orderAssembler .both).kindOfHeader? (Text.trim (longHeader n)) = some .add := by
    rw [htrim]
    rfl
  have hname : (orderAssembler .both).dialect.nameOfHeader (longHeader n) = longHeader n := by
    show (Dialect.trimmed? (longHeader n)).getD (Text.trim (longHeader n)) = longHeader n
    unfold Dialect.trimmed?
    dsimp only
    rw [htrim]
    split <;> rfl
  have hbody : bodyBelow (orderAssembler .both) (Text.trim (longHeader n)) ⟨1, []⟩ =
      { result := .error (longError n), cursor := ⟨1, []⟩ } := by
    rw [htrim, bodyBelow, hname]
    rfl
  rw [hcursor, readCases_fail hkind (by rw [hbody]), hbody, htrim]
  rfl

lemma le_length_longError (n : ℕ) : n + 4 ≤ (longError n).message.length := by
  have hmessage : (longError n).message =
      "Expecting '[Documentation]' line under test case " ++ longHeader n := rfl
  have hheader : n + 1 ≤ (longHeader n).length := by
    unfold longHeader
    rw [List.length_append, List.length_replicate]
    omega
  have hstart : ("Expecting '[Documentation]' line under test case " : Text).length = 49 := rfl
  rw [hmessage, List.length_append, hstart]
  omega

/-- An error that is longer than what events carry is not reported whole. -/
lemma assemble_longHeader {n : ℕ} (hn : Limits.messageBytes ≤ n) :
    ((orderAssembler .both).assemble (terminated [longHeader n])).value = .error (longError n) ∧
      ∃ before event, ((orderAssembler .both).assemble (terminated [longHeader n])).journal =
          before ++ [.report event] ∧
        event.isError = true ∧ event.code = (longError n).code ∧
        event.message ≠ (longError n).message := by
  have hlong := le_length_longError n
  rw [assemble_of_error (readCases_longHeader n)]
  exact ⟨rfl, [_], Assembler.failed _ (longError n) 1, rfl, rfl, rfl, truncate_ne (by omega)⟩

theorem assembly_traced_cut :
    let block := terminated [longHeader Limits.messageBytes]
    let e := longError Limits.messageBytes
    ((orderAssembler .both).assemble block).value = .error e ∧
      ∃ before event, ((orderAssembler .both).assemble block).journal =
          before ++ [.report event] ∧
        event.isError = true ∧ event.code = e.code ∧ event.message ≠ e.message :=
  assemble_longHeader le_rfl

end TestCatalog.Proofs
