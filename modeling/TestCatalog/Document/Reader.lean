import TestCatalog.Diagnostics.Journal
import TestCatalog.Document.Cursor
import TestCatalog.Document.Error

/-!
# Readers

A reader takes lines from a cursor. Whether it succeeds or fails, it leaves the cursor where it
stopped and a journal of what it reported. Readers only move forward: `Reader.Forward`.
-/

namespace TestCatalog

structure Reading (α : Type) where
  result : Except GrammarError α
  cursor : Cursor
  journal : Journal := []

def Reader (α : Type) : Type :=
  Cursor → Reading α

namespace Reader

variable {α β : Type}

instance : Monad Reader where
  pure a := fun c => { result := .ok a, cursor := c }
  bind r f := fun c =>
    match r c with
    | ⟨.ok a, c', journal⟩ =>
      let rest := f a c'
      { rest with journal := journal ++ rest.journal }
    | ⟨.error e, c', journal⟩ => ⟨.error e, c', journal⟩

def fail (e : GrammarError) : Reader α :=
  fun c => { result := .error e, cursor := c }

def note (e : Event) : Reader Unit :=
  fun c => { result := .ok (), cursor := c, journal := [.report e] }

def noteAll (events : List Event) : Reader Unit :=
  fun c => { result := .ok (), cursor := c, journal := events.map .report }

/-- The next line without blanks at either end; blank at the end of the block. -/
def nextTrimmed : Reader Text :=
  fun c => { result := .ok (Text.trim c.nextOrBlank.1), cursor := c.nextOrBlank.2 }

def require (value : Option α) (e : GrammarError) : Reader α :=
  match value with
  | some a => pure a
  | none => fail e

/-- Takes over the result of a check. -/
def lift (result : Except GrammarError α) : Reader α :=
  fun c => { result, cursor := c }

/-- A sequence succeeds exactly when both parts do, and its journal is theirs in order. -/
theorem bind_eq_ok {r : Reader α} {f : α → Reader β} {c c'' : Cursor} {b : β} {j : Journal}
    (h : (r >>= f) c = ⟨.ok b, c'', j⟩) :
    ∃ a c' j₁ j₂, r c = ⟨.ok a, c', j₁⟩ ∧ f a c' = ⟨.ok b, c'', j₂⟩ ∧ j = j₁ ++ j₂ := by
  simp only [Bind.bind] at h
  rcases hr : r c with ⟨result, c', j₁⟩
  rw [hr] at h
  cases result with
  | error e => simp at h
  | ok a =>
    rcases hf : f a c' with ⟨result', d, j₂⟩
    simp only [hf, Reading.mk.injEq] at h
    obtain ⟨rfl, rfl, rfl⟩ := h
    exact ⟨a, c', j₁, j₂, rfl, hf, rfl⟩

/-! ## Moving forward -/

/-- The reader never moves back, and counts the lines it takes. -/
def Forward (r : Reader α) : Prop :=
  ∀ c : Cursor, c.Reaches (r c).cursor

theorem forward_pure (a : α) : Forward (pure a : Reader α) :=
  fun c => .refl c

theorem forward_fail (e : GrammarError) : Forward (fail e : Reader α) :=
  fun c => .refl c

theorem forward_note (e : Event) : Forward (note e) :=
  fun c => .refl c

theorem forward_noteAll (events : List Event) : Forward (noteAll events) :=
  fun c => .refl c

theorem forward_lift (result : Except GrammarError α) : Forward (lift result) :=
  fun c => .refl c

theorem forward_nextTrimmed : Forward nextTrimmed :=
  fun c => c.nextOrBlank_reaches

theorem forward_require (value : Option α) (e : GrammarError) : Forward (require value e) := by
  cases value with
  | none => exact forward_fail e
  | some a => exact forward_pure a

theorem bind_cursor_reaches {r : Reader α} {f : α → Reader β} (c : Cursor)
    (hf : ∀ a, Forward (f a)) : (r c).cursor.Reaches ((r >>= f) c).cursor := by
  show Cursor.Reaches _ (match r c with
    | ⟨.ok a, c', journal⟩ =>
      let rest := f a c'
      { rest with journal := journal ++ rest.journal }
    | ⟨.error e, c', journal⟩ => (⟨.error e, c', journal⟩ : Reading β)).cursor
  rcases r c with ⟨result, c', journal⟩
  cases result with
  | ok a => exact hf a c'
  | error e => exact .refl c'

theorem forward_bind {r : Reader α} {f : α → Reader β} (hr : Forward r)
    (hf : ∀ a, Forward (f a)) : Forward (r >>= f) :=
  fun c => (hr c).trans (bind_cursor_reaches c hf)

end Reader

end TestCatalog
