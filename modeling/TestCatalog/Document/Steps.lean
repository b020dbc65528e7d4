import TestCatalog.Document.Section

/-!
# Steps

The steps of a test case are numbered triads: what to do, what to expect, and notes. Each of the
three goes on over the lines below it that start with a dash.
-/

namespace TestCatalog

inductive StepElement where
  | action
  | expected
  | notes
deriving DecidableEq

/-- The lines of a step's three elements, without their marks; none is empty of lines. -/
structure Triad where
  action : List Text
  expected : List Text
  notes : List Text
deriving DecidableEq

namespace StepElement

def all : List StepElement := [action, expected, notes]

def label : StepElement → Text
  | action => "Steps"
  | expected => "ER"
  | notes => "Notes"

def mark (count : Nat) : StepElement → Text
  | action => Section.numberMark count
  | expected => expected.label ++ ":"
  | notes => notes.label ++ ":"

def missing (count : Nat) (case : Text) : StepElement → GrammarError
  | action => .stepNumbering count case
  | expected => .stepLabel expected.label case
  | notes => .stepLabel notes.label case

/-- The number of the step that the element after this one belongs to, counted on at each action. -/
def countAfter (count : Nat) : StepElement → Nat
  | action => count + 1
  | expected => count
  | notes => count

end StepElement

namespace Steps

def label : Text := "Steps"

def render (lines : List Text) : Text :=
  escapeMarkup (Text.join "\n" lines)

/-! ## Elements -/

/-- The dash lines from here on, the line after them, and the cursor after that line. -/
def takeContinuation (n : Nat) : List Text → List Text × Text × Cursor
  | [] => ([], [], ⟨n, []⟩)
  | line :: rest =>
    let text := Text.trim line
    if Text.startsWith "-" text then
      let (lines, next, c) := takeContinuation (n + 1) rest
      (text :: lines, next, c)
    else ([], text, ⟨n + 1, rest⟩)

/-- An element that starts on `line`, which is already taken: its lines, and the line after it. -/
def readElement (element : StepElement) (count : Nat) (line case : Text) :
    Reader (List Text × Text) := do
  let body ← Reader.require (Text.stripStart? (element.mark count) (Text.trim line))
    (element.missing count case)
  fun c =>
    let (lines, next, c') := takeContinuation c.lineNumber c.rest
    { result := .ok (Text.trim body :: lines, next), cursor := c' }

theorem takeContinuation_reaches (n : Nat) (lines : List Text) :
    Cursor.Reaches ⟨n, lines⟩ (takeContinuation n lines).2.2 := by
  induction lines generalizing n with
  | nil => exact .refl _
  | cons line rest ih =>
    rw [takeContinuation]
    split
    · exact (Cursor.reaches_succ n line rest).trans (ih (n + 1))
    · exact Cursor.reaches_succ n line rest

/-- A line that is not blank was taken from the block. -/
theorem length_lt_of_takeContinuation {n : Nat} {lines : List Text}
    (h : (takeContinuation n lines).2.1 ≠ []) :
    (takeContinuation n lines).2.2.rest.length < lines.length := by
  induction lines generalizing n with
  | nil => simp [takeContinuation] at h
  | cons line rest ih =>
    rw [takeContinuation] at h ⊢
    by_cases dash : Text.startsWith "-" (Text.trim line)
    · rw [if_pos dash] at h ⊢
      exact Nat.lt_succ_of_lt (ih h)
    · rw [if_neg dash]
      exact Nat.lt_succ_self _

theorem forward_readElement (element : StepElement) (count : Nat) (line case : Text) :
    (readElement element count line case).Forward :=
  Reader.forward_bind (Reader.forward_require _ _) fun _ c =>
    takeContinuation_reaches c.lineNumber c.rest

/-! ## Triads -/

/-- The triad of step `count`, whose first line is already taken, and the line after it. -/
def readTriad (case : Text) (count : Nat) (line : Text) : Reader (Triad × Text) := do
  let (action, next) ← readElement .action count line case
  let (expected, next) ← readElement .expected count next case
  let (notes, next) ← readElement .notes count next case
  pure (⟨action, expected, notes⟩, next)

/-- The warning that a test case has one step more than the limit. -/
def tooMany (case : Text) : Event :=
  (Event.warning .manySteps "Test case has more steps than the configured limit").withDetails
    [("case", case), ("limit", Text.ofNat Limits.maxSteps)]

theorem forward_readTriad (case : Text) (count : Nat) (line : Text) :
    (readTriad case count line).Forward :=
  Reader.forward_bind (forward_readElement _ _ _ _) fun _ =>
    Reader.forward_bind (forward_readElement _ _ _ _) fun _ =>
      Reader.forward_bind (forward_readElement _ _ _ _) fun _ => Reader.forward_pure _

theorem length_lt_of_readElement {element : StepElement} {count : Nat} {line case next : Text}
    {c c' : Cursor} {lines : List Text} {journal : Journal}
    (h : readElement element count line case c = ⟨.ok (lines, next), c', journal⟩)
    (hn : next ≠ []) : c'.rest.length < c.rest.length := by
  obtain ⟨body, d, j₁, j₂, hd, h, -⟩ := Reader.bind_eq_ok h
  have hle := (Reader.forward_require (Text.stripStart? (element.mark count) (Text.trim line))
    (element.missing count case) c).length_le
  rw [hd] at hle
  simp only [Reading.mk.injEq, Except.ok.injEq, Prod.mk.injEq] at h
  obtain ⟨⟨-, rfl⟩, rfl, -⟩ := h
  exact Nat.lt_of_lt_of_le (length_lt_of_takeContinuation hn) hle

theorem length_lt_of_readTriad {case line next : Text} {count : Nat} {c c' : Cursor}
    {triad : Triad} {journal : Journal}
    (h : readTriad case count line c = ⟨.ok (triad, next), c', journal⟩) (hn : next ≠ []) :
    c'.rest.length < c.rest.length := by
  obtain ⟨⟨action, n₁⟩, c₁, j₁, k₁, h₁, h, -⟩ := Reader.bind_eq_ok h
  obtain ⟨⟨expected, n₂⟩, c₂, j₂, k₂, h₂, h, -⟩ := Reader.bind_eq_ok h
  obtain ⟨⟨notes, n₃⟩, c₃, j₃, k₃, h₃, h, -⟩ := Reader.bind_eq_ok h
  obtain ⟨⟨-, rfl⟩, rfl, -⟩ : ((⟨action, expected, notes⟩ : Triad) = triad ∧ n₃ = next) ∧
      c₃ = c' ∧ [] = k₃ := by simpa [pure] using h
  have l₁ := (forward_readElement .action count line case c).length_le
  have l₂ := (forward_readElement .expected count n₁ case c₁).length_le
  rw [h₁] at l₁
  rw [h₂] at l₂
  exact Nat.lt_of_lt_of_le (length_lt_of_readElement h₃ hn) (Nat.le_trans l₂ l₁)

/-- The triads up to the blank line that ends them; the first line of step `count` is already
taken. -/
def readTriads (case : Text) (count : Nat) (line : Text) (c : Cursor) : Reading (List Triad) :=
  match h : readTriad case count line c with
  | ⟨.error e, c', journal⟩ => ⟨.error e, c', journal⟩
  | ⟨.ok (triad, next), c', journal⟩ =>
    let journal := journal ++ if count = Limits.maxSteps + 1 then [.report (tooMany case)] else []
    if hn : next = [] then ⟨.ok [triad], c', journal⟩
    else
      have := length_lt_of_readTriad h hn
      let rest := readTriads case (count + 1) next c'
      { result := rest.result.map (triad :: ·)
        cursor := rest.cursor
        journal := journal ++ rest.journal }
termination_by c.rest.length

/-- The steps of a test case: at least one, and the blank line after them. -/
def read (case : Text) : Reader (List Triad) := do
  Section.expectHeader label case false
  let line ← Reader.nextTrimmed
  readTriads case 1 line

theorem forward_readTriads (case : Text) (count : Nat) (line : Text) :
    Reader.Forward (readTriads case count line) := by
  intro c
  fun_induction readTriads case count line c with
  | case1 count line c e c' journal h =>
    have := forward_readTriad case count line c
    rwa [h] at this
  | case2 count line c triad next c' journal h =>
    have := forward_readTriad case count line c
    rwa [h] at this
  | case3 count line c triad next c' journal h _ _ _ rest ih =>
    have := forward_readTriad case count line c
    rw [h] at this
    exact this.trans ih

theorem forward_read (case : Text) : (read case).Forward :=
  Reader.forward_bind (Section.forward_expectHeader _ _ _) fun _ =>
    Reader.forward_bind Reader.forward_nextTrimmed fun line => forward_readTriads case 1 line

end Steps

end TestCatalog
