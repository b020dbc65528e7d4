import Mathlib.Data.List.Perm.Basic
import Mathlib.Tactic.Common
import TestCatalog.Diagnostics.Journal

/-!
# Laws of journals

The journal of work that is done in steps holds the journals of the steps, up to the first one
that fails, and so it holds as many warnings as each of them. A `Woven` journal holds the journals
of some pieces of work in their order, each in one piece, and between them nothing but reports.
-/

namespace TestCatalog.Proofs

/-! ## Steps -/

section Steps

variable {ε ε' α β : Type}

lemma run_bind_of_ok {x : ExceptT ε Logged α} {a : α} (h : x.run.value = .ok a)
    (f : α → ExceptT ε Logged β) : (x >>= f).run =
      { value := (f a).run.value, journal := x.run.journal ++ (f a).run.journal } := by
  obtain ⟨value, journal⟩ := x
  obtain rfl : value = .ok a := h
  rfl

lemma run_bind_of_error {x : ExceptT ε Logged α} {e : ε} (h : x.run.value = .error e)
    (f : α → ExceptT ε Logged β) : (x >>= f).run = { value := .error e, journal := x.run.journal } := by
  obtain ⟨value, journal⟩ := x
  obtain rfl : value = .error e := h
  exact congrArg (Logged.mk _) (List.append_nil journal)

lemma run_lift_bind (x : Logged α) (f : α → ExceptT ε Logged β) :
    ((x : ExceptT ε Logged α) >>= f).run =
      { value := (f x.value).run.value, journal := x.journal ++ (f x.value).run.journal } := by
  have hjournal : (x : ExceptT ε Logged α).run.journal = x.journal := List.append_nil x.journal
  rw [run_bind_of_ok (a := x.value) rfl, hjournal]

lemma run_adapt (f : ε → ε') (x : ExceptT ε Logged α) :
    (ExceptT.adapt f x).run =
      { value := x.run.value.mapError f, journal := x.run.journal } :=
  congrArg (Logged.mk _) (List.append_nil x.run.journal)

end Steps

/-! ## Reports -/

/-- Details change nothing but the context of an event. -/
lemma withDetails_eq (e : Event) (details : List (Text × Text)) :
    e.withDetails details = { e with context := (e.withDetails details).context } := by
  induction details generalizing e with
  | nil => rfl
  | cons detail details ih => exact ih (e.withDetail detail)

@[simp] lemma level_withDetails (e : Event) (details : List (Text × Text)) :
    (e.withDetails details).level = e.level := by
  rw [withDetails_eq]

@[simp] lemma code_withDetails (e : Event) (details : List (Text × Text)) :
    (e.withDetails details).code = e.code := by
  rw [withDetails_eq]

@[simp] lemma message_withDetails (e : Event) (details : List (Text × Text)) :
    (e.withDetails details).message = e.message := by
  rw [withDetails_eq]

def reported (journal : Journal) : List Event :=
  journal.filterMap fun
    | .report e => some e
    | _ => none

def warningCount (journal : Journal) : ℕ :=
  (reported journal).countP Event.isWarning

lemma reported_append (journal journal' : Journal) :
    reported (journal ++ journal') = reported journal ++ reported journal' :=
  List.filterMap_append

@[simp] lemma warningCount_append (journal journal' : Journal) :
    warningCount (journal ++ journal') = warningCount journal + warningCount journal' := by
  rw [warningCount, reported_append, List.countP_append]
  rfl

lemma warningCount_le_cons (entry : Entry) (journal : Journal) :
    warningCount journal ≤ warningCount (entry :: journal) :=
  Nat.le.intro ((Nat.add_comm _ _).trans (warningCount_append [entry] journal).symm)

/-! ## Pieces of work -/

inductive Woven : List Journal → Journal → Prop where
  | nil : Woven [] []
  | report (e : Event) {pieces : List Journal} {journal : Journal} (below : Woven pieces journal) :
      Woven pieces (.report e :: journal)
  | piece (piece : Journal) {pieces : List Journal} {journal : Journal}
      (below : Woven pieces journal) : Woven (piece :: pieces) (piece ++ journal)

variable {pieces pieces' : List Journal} {journal journal' : Journal}

lemma Woven.append (h : Woven pieces journal) (h' : Woven pieces' journal') :
    Woven (pieces ++ pieces') (journal ++ journal') := by
  induction h with
  | nil => exact h'
  | report e below ih => exact ih.report e
  | piece piece below ih =>
    rw [List.append_assoc]
    exact ih.piece piece

lemma woven_reports (events : List Event) : Woven [] (events.map .report) := by
  induction events with
  | nil => exact .nil
  | cons e events ih => exact ih.report e

lemma woven_flatten (pieces : List Journal) : Woven pieces pieces.flatten := by
  induction pieces with
  | nil => exact .nil
  | cons piece pieces ih => exact ih.piece piece

/-- Beside the pieces, the journal holds reports. -/
theorem Woven.perm (h : Woven pieces journal) :
    ∃ own : List Event, journal.Perm (pieces.flatten ++ own.map .report) := by
  induction h with
  | nil => exact ⟨[], .nil⟩
  | report e below ih =>
    obtain ⟨own, hown⟩ := ih
    exact ⟨e :: own, (hown.cons _).trans List.perm_middle.symm⟩
  | piece piece below ih =>
    obtain ⟨own, hown⟩ := ih
    refine ⟨own, ?_⟩
    rw [List.flatten_cons, List.append_assoc]
    exact hown.append_left piece

end TestCatalog.Proofs
