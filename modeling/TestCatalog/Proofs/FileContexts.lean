import TestCatalog.Diagnostics.Buffer
import TestCatalog.Proofs.FileAttribution

/-!
# The current file around work on a file

Work on a file makes that file the current one and ends with no current file, whatever is done in
between and however deep it is nested. So the caller has the current file back exactly if it had
none, and what it calls afterwards is done without a file.
-/

namespace TestCatalog.Proofs

/-- The current file after the calls. -/
def currentAfter (current : Option FileContext) (acts : List Act) : Option FileContext :=
  acts.foldl Act.next current

lemma history_append (current : Option FileContext) (acts acts' : List Act) :
    history current (acts ++ acts') =
      history current acts ++ history (currentAfter current acts) acts' := by
  induction acts generalizing current with
  | nil => rfl
  | cons act acts ih => exact congrArg _ (ih (act.next current))

variable {α : Type} [Logger α]

lemma current_replay (desk : Desk α) (acts : List Act) :
    (desk.replay (acts.map Act.entry)).current = currentAfter desk.current acts := by
  induction acts generalizing desk with
  | nil => rfl
  | cons act acts ih =>
    show ((desk.apply act.entry).replay (acts.map Act.entry)).current = _
    rw [ih, current_apply]
    rfl

/-- However deep calls are nested in the work on a file, no file is current in the end. -/
lemma currentAfter_within (current : Option FileContext) (file : FileContext) (body : List Call) :
    currentAfter current (Call.within file body).acts = none := by
  rw [Call.acts, currentAfter, List.foldl_append]
  rfl

/-- While no file is current nothing is collected. -/
lemma collector_reports_of_none {desk : Desk α} (h : desk.current = none) (events : List Event) :
    (desk.replay (events.map .report)).collector = desk.collector := by
  induction events generalizing desk with
  | nil => rfl
  | cons e events ih =>
    have hnext : (desk.report e).collector = desk.collector := by
      simp only [Desk.report, h]
    have hcurrent : (desk.report e).current = none := h
    exact (ih hcurrent).trans hnext

/-- Work on a file gives the current file back exactly if there was none. The calls after it are
made as if none had been current, and the findings reported then are collected for no file. -/
theorem within_restores_iff (desk : Desk α) (file : FileContext) (body later : List Call)
    (events : List Event) :
    let after := desk.replay (Call.within file body).run.journal
    (after.current = desk.current ↔ desk.current = none) ∧
      history desk.current (flatCalls (.within file body :: later)) =
        history desk.current (Call.within file body).acts ++ history none (flatCalls later) ∧
      (after.replay (events.map .report)).collector = after.collector := by
  intro after
  have hafter : after.current = none := by
    show (desk.replay (Call.within file body).run.journal).current = none
    rw [journal_run, current_replay, currentAfter_within]
  refine ⟨?_, ?_, collector_reports_of_none hafter events⟩
  · rw [hafter]
    exact eq_comm
  · rw [flatCalls, history_append, currentAfter_within]

/-- A caller with a file has lost it after work on another one, together with its next error. -/
theorem within_drops_file :
    let outer : FileContext := ⟨⟨"suite/cart.py"⟩, 1⟩
    let inner : FileContext := ⟨⟨"suite/login.py"⟩, 2⟩
    let desk : Desk EventBuffer :=
      { log := { minLevel := .debug, logger := ∅ }, current := some outer }
    let after := desk.replay (Call.within inner [.one (.logInfo "Reading" [])]).run.journal
    after.current ≠ desk.current ∧
      (after.replay [.report (.error .emptyTable "Empty table")]).collector.errors outer.path = [] ∧
      (desk.replay [.report (.error .emptyTable "Empty table")]).collector.errors outer.path ≠ [] := by
  refine ⟨?_, ?_, ?_⟩
  · decide
  · rfl
  · decide

end TestCatalog.Proofs
