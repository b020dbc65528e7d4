import TestCatalog.Proofs.ReaderReports
import TestCatalog.Source.Extract

/-!
# Reported failures

Readers report no errors, and the work on a file reports one exactly if it fails, last of all. The
main statement is `candid_run`.
-/

namespace TestCatalog.Proofs

/-- Reports of anything but errors. -/
def Calm (journal : Journal) : Prop :=
  ∀ entry ∈ journal, ∃ e : Event, entry = .report e ∧ e.isError = false

/-- Work that fails reports an error, as the last thing that it reports and the only error. -/
inductive Candid {ε α : Type} : Except ε α → Journal → Prop where
  | ok (a : α) {journal : Journal} (h : Calm journal) : Candid (.ok a) journal
  | error (error : ε) {before : Journal} {e : Event} (h : Calm before) (he : e.isError = true) :
      Candid (.error error) (before ++ [.report e])

/-! ## Calm journals -/

lemma calm_nil : Calm [] := onlyReports_nil

lemma calm_append {journal journal' : Journal} (h : Calm journal) (h' : Calm journal') :
    Calm (journal ++ journal') :=
  OnlyReports.append h h'

lemma calm_report {e : Event} (h : e.isError = false) : Calm [.report e] :=
  onlyReports_single h

/-! ## Bodies -/

lemma Incidental.isError {e : Event} (h : Incidental e) : e.isError = false := by
  cases h with
  | table hlevel _ _ => simp [Event.isError, hlevel]
  | warning hlevel _ => simp [Event.isError, hlevel]

lemma isError_transition (case : Text) (origin target : Stage) :
    (Stage.transition case origin target).isError = false := by
  simp [Stage.transition, Event.isError, Event.debug, Event.make]

/-- Reading a body reports no error; that is left to the assembler. -/
theorem notes_readBody (config : SyncConfig) (d : Dialect) (header name : Text) :
    Notes (fun e => e.isError = false) (CaseBody.read config d header name) := by
  have hpart {α : Type} {r : Reader α} (h : Notes Incidental r) :
      Notes (fun e => e.isError = false) r :=
    h.mono fun _ => Incidental.isError
  exact notes_bind (hpart (notes_expectOpening _ _ _)) fun _ =>
    notes_bind (hpart (notes_readSection _ _)) fun _ =>
    notes_bind (notes_note (isError_transition _ _ _)) fun _ =>
    notes_bind (hpart (notes_readSection _ _)) fun _ =>
    notes_bind (notes_note (isError_transition _ _ _)) fun _ =>
    notes_bind (hpart (notes_readSection _ _)) fun _ =>
    notes_bind (notes_note (isError_transition _ _ _)) fun _ =>
    notes_bind (hpart (notes_readSteps _)) fun _ =>
    notes_bind (notes_note (isError_transition _ _ _)) fun _ =>
    notes_bind (hpart (notes_readProjects _ _ _)) fun _ =>
    notes_bind (notes_noteAll (by simp [isError_transition])) fun _ => notes_pure _

/-! ## Candid work -/

section Work

variable {ε ε' α β : Type}

lemma candid_ok_iff {a : α} {journal : Journal} :
    Candid (.ok a : Except ε α) journal ↔ Calm journal := by
  constructor
  · rintro ⟨⟩
    assumption
  · exact .ok a

lemma candid_error_iff {error : ε} {journal : Journal} :
    Candid (.error error : Except ε α) journal ↔ ∃ (before : Journal) (e : Event),
      journal = before ++ [.report e] ∧ Calm before ∧ e.isError = true := by
  constructor
  · intro h
    cases h with
    | error _ h he => exact ⟨_, _, rfl, h, he⟩
  · rintro ⟨before, e, rfl, h, he⟩
    exact .error error h he

lemma Candid.append_left {result : Except ε α} {before journal : Journal} (hbefore : Calm before)
    (h : Candid result journal) : Candid result (before ++ journal) := by
  cases h with
  | ok a h => exact .ok a (calm_append hbefore h)
  | error error h he =>
    rw [← List.append_assoc]
    exact .error error (calm_append hbefore h) he

lemma Candid.map {result : Except ε α} {journal : Journal} (f : α → β) (h : Candid result journal) :
    Candid (result.map f) journal := by
  cases h with
  | ok a h => exact .ok (f a) h
  | error error h he => exact .error error h he

lemma Candid.mapError {result : Except ε α} {journal : Journal} (f : ε → ε')
    (h : Candid result journal) : Candid (result.mapError f) journal := by
  cases h with
  | ok a h => exact .ok a h
  | error error h he => exact .error (f error) h he

/-- Work in steps that is candid. -/
def CandidWork (x : ExceptT ε Logged α) : Prop :=
  Candid x.run.value x.run.journal

theorem candid_bind {x : ExceptT ε Logged α} {f : α → ExceptT ε Logged β} (hx : CandidWork x)
    (hf : ∀ a, CandidWork (f a)) : CandidWork (x >>= f) := by
  unfold CandidWork at hx ⊢
  cases hvalue : x.run.value with
  | ok a =>
    rw [hvalue, candid_ok_iff] at hx
    rw [run_bind_of_ok hvalue]
    exact (hf a).append_left hx
  | error error =>
    rw [hvalue, candid_error_iff] at hx
    rw [run_bind_of_error hvalue]
    exact candid_error_iff.mpr hx

lemma candid_pure (a : α) : CandidWork (pure a : ExceptT ε Logged α) :=
  .ok a calm_nil

lemma candid_note {e : Event} (he : e.isError = false) :
    CandidWork (Logged.note e : ExceptT ε Logged Unit) :=
  .ok () (calm_report he)

lemma candid_note_throw {e : Event} (he : e.isError = true) (error : ε) :
    CandidWork (do Logged.note e; throw error : ExceptT ε Logged α) :=
  .error error calm_nil he

lemma candid_adapt (f : ε → ε') {x : ExceptT ε Logged α} (hx : CandidWork x) :
    CandidWork (ExceptT.adapt f x) := by
  unfold CandidWork
  rw [run_adapt]
  exact hx.mapError f

end Work

theorem candid_readCases (a : Assembler) (c : Cursor) :
    Candid (a.readCases c).result (a.readCases c).journal := by
  fun_induction Assembler.readCases a c with
  | case1 => exact .ok _ calm_nil
  | case2 => assumption
  | case3 c line rest hc header below kind hkind name e c' journal hr =>
    have hbody : Calm _ := notes_readBody a.config a.dialect header name below
    rw [hr] at hbody
    exact .error e hbody rfl
  | case4 c line rest hc header below kind hkind name body c' journal hr hlt case others ih =>
    have hbody : Calm _ := notes_readBody a.config a.dialect header name below
    rw [hr] at hbody
    have hcase : Calm [.report (Assembler.assembled case)] := calm_report (by
      simp [Assembler.assembled, Event.isError, Event.info, Event.make])
    exact ((ih.map _).append_left hcase).append_left hbody

lemma candid_assemble (a : Assembler) (block : Text) :
    CandidWork (ExceptT.mk (a.assemble block)) := by
  have hstarted (c : Cursor) : Calm [.report (a.started c)] := calm_report (by
    simp [Assembler.started, Event.isError, Event.debug, Event.make])
  have hread := candid_readCases a (Cursor.ofText block)
  unfold CandidWork
  show Candid (a.assemble block).value (a.assemble block).journal
  unfold Assembler.assemble
  dsimp only
  cases hresult : (a.readCases (Cursor.ofText block)).result with
  | ok cases =>
    rw [hresult, candid_ok_iff] at hread
    have hfinished : Calm [.report (Assembler.finished cases)] := calm_report (by
      simp [Assembler.finished, Event.isError, Event.info, Event.make])
    exact .ok cases (calm_append (calm_append (hstarted _) hread) hfinished)
  | error e =>
    rw [hresult] at hread
    rw [List.append_nil]
    exact hread.append_left (hstarted _)

lemma candid_checked {α : Type} (message : Text) (path : Path) (result : Except FileError α) :
    CandidWork (FileReader.checked message path result) := by
  cases result with
  | ok a => exact candid_pure a
  | error e =>
    apply candid_note_throw
    simp [FileReader.rejected, Event.isError, Event.error, Event.make]

lemma candid_readFile (r : FileReader) (tree : FileTree) (path : Path) :
    CandidWork (r.read tree path) := by
  apply candid_bind (candid_note rfl)
  intro _
  apply candid_bind (candid_checked _ _ _)
  intro content
  apply candid_bind (candid_checked _ _ _)
  intro _
  apply candid_bind (candid_checked _ _ _)
  intro source
  dsimp only
  split
  · have htooLong : (FileReader.tooLong path (Text.lines source).length).isError = true := by
      simp [FileReader.tooLong, Event.isError, Event.error, Event.make]
    exact .error _ calm_nil htooLong
  split
  · apply candid_bind
    · apply candid_note
      simp [FileReader.completed, Event.isError, Event.info, Event.make]
    intro _
    exact candid_pure _
  · exact candid_pure _

lemma candid_resolveFolder (config : SyncConfig) (path : Path) :
    CandidWork (config.resolveFolder path) := by
  unfold SyncConfig.resolveFolder
  split
  · exact candid_pure _
  · exact candid_note_throw rfl _

lemma candid_filtered (x : Extractor) (source : Text) : CandidWork (x.filtered source) := by
  unfold Extractor.filtered
  split
  · exact candid_pure _
  · exact candid_note_throw rfl _

/-- Extraction fails with one report of an error, and succeeds with none. -/
theorem candid_run (x : Extractor) (tree : FileTree) (path : Path) : CandidWork (x.run tree path) := by
  apply candid_bind
  · apply candid_note
    simp [Extractor.started, Event.isError, Event.info, Event.make]
  intro _
  apply candid_bind (candid_adapt _ (candid_readFile _ _ _))
  intro file
  apply candid_bind (candid_resolveFolder _ _)
  intro folder
  apply candid_bind (candid_filtered _ _)
  intro block
  apply candid_bind (candid_adapt _ (candid_assemble _ _))
  intro cases
  apply candid_bind
  · apply candid_note
    simp [Extraction.completed, Event.isError, Event.info, Event.make]
  intro _
  exact candid_pure _

end TestCatalog.Proofs
