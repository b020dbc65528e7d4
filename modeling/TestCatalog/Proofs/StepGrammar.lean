import TestCatalog.Proofs.SectionGrammar

/-!
# Step grammar

The grammar of the steps says which lines are an element, a step, and steps numbered from one on,
and what the catalogue shows of them. Any lines either go on as steps up to a blank line or the end,
or come to a first element that is missing. Reading follows the grammar in both cases, though it is
always one line ahead: an element ends when the line after its dash lines is taken.
-/

namespace TestCatalog.Proofs

/-! ## Grammar -/

def IsStepsHeader (line : Text) : Prop :=
  ("Steps:" : Text) <+: Text.trim line

/-- The mark of step `k`. -/
def stepMark (k : ℕ) : Text :=
  Text.ofNat k ++ ")"

/-- The lines of an element, and its text in the catalogue: what follows the mark and the dash lines
below it, joined and escaped. -/
inductive AdmitsElement (mark : Text) : List Text → Text → Prop where
  | mk {x lines : List Text} (h : HoldsElement mark x lines) :
      AdmitsElement mark x (escapeMarkup (Text.join "\n" lines))

/-- The three elements of step `k`. -/
inductive AdmitsStep (k : ℕ) : List Text → Step → Prop where
  | mk {x y z : List Text} {action expected notes : Text}
      (haction : AdmitsElement (stepMark k) x action) (hexpected : AdmitsElement "ER:" y expected)
      (hnotes : AdmitsElement "Notes:" z notes) :
      AdmitsStep k (x ++ (y ++ z)) ⟨action, expected, notes⟩

/-- Steps numbered from `k` on. -/
inductive AdmitsSteps : (k : ℕ) → List Text → List Step → Prop where
  | nil (k : ℕ) : AdmitsSteps k [] []
  | cons {k : ℕ} {x y : List Text} {step : Step} {steps : List Step} (h : AdmitsStep k x step)
      (below : AdmitsSteps (k + 1) y steps) : AdmitsSteps k (x ++ y) (step :: steps)

/-- Whether the next line, if there is one, does not start with the mark. -/
def AtUnmarked (mark : Text) (lines : List Text) : Prop :=
  ∀ line ∈ lines.head?, ¬ mark <+: Text.trim line

/-- Which element is missing where step `k` should stand. -/
inductive BadStep (case : Text) (k : ℕ) : List Text → GrammarError → Prop where
  | action {below : List Text} (hbelow : AtUnmarked (stepMark k) below) :
      BadStep case k below (.stepNumbering k case)
  | expected {x below : List Text} {action : Text} (haction : AdmitsElement (stepMark k) x action)
      (hother : AtOther below) (hbelow : AtUnmarked "ER:" below) :
      BadStep case k (x ++ below) (.stepLabel "ER" case)
  | notes {x y below : List Text} {action expected : Text}
      (haction : AdmitsElement (stepMark k) x action) (hexpected : AdmitsElement "ER:" y expected)
      (hother : AtOther below) (hbelow : AtUnmarked "Notes:" below) :
      BadStep case k (x ++ (y ++ below)) (.stepLabel "Notes" case)

/-- The next line is neither blank nor goes on with the element above. -/
def GoesOn (lines : List Text) : Prop :=
  ∃ line ∈ lines.head?, ¬ IsBlankLine line ∧ ¬ IsDashLine line

/-- Steps at the front of some lines, one at least, and the lines below the blank line that ends
them. Where no blank line ends them, they go on to the last line. -/
inductive AcceptedSteps : List Text → List Step → (rest : List Text) → Prop where
  | atBlank {header blank : Text} {x rest : List Text} {steps : List Step}
      (hheader : IsStepsHeader header) (hsteps : AdmitsSteps 1 x steps) (hne : steps ≠ [])
      (hblank : IsBlankLine blank) : AcceptedSteps (header :: (x ++ blank :: rest)) steps rest
  | atEnd {header : Text} {x : List Text} {steps : List Step} (hheader : IsStepsHeader header)
      (hsteps : AdmitsSteps 1 x steps) (hne : steps ≠ []) :
      AcceptedSteps (header :: x) steps []

/-- Lines with no steps at their front: they have no header, or a first bad step, which may stand
directly below the header. -/
inductive RejectedSteps (case : Text) : List Text → GrammarError → Prop where
  | header {lines : List Text} (hheader : ∀ header ∈ lines.head?, ¬ IsStepsHeader header) :
      RejectedSteps case lines (.missingSectionHeader "Steps" case false)
  | first {header : Text} {below : List Text} {e : GrammarError} (hheader : IsStepsHeader header)
      (hbad : BadStep case 1 below e) : RejectedSteps case (header :: below) e
  | later {header : Text} {x below : List Text} {steps : List Step} {e : GrammarError}
      (hheader : IsStepsHeader header) (hsteps : AdmitsSteps 1 x steps) (hne : steps ≠ [])
      (hgoes : GoesOn below) (hbad : BadStep case (steps.length + 1) below e) :
      RejectedSteps case (header :: (x ++ below)) e

variable {case mark : Text} {e : StepElement} {k : ℕ} {x lines rest : List Text}

/-! ## One line ahead -/

/-- The line that a reader at `c` has taken ahead, when it stands at `past c`. -/
def ahead (c : Cursor) : Text :=
  Text.trim c.nextOrBlank.1

def past (c : Cursor) : Cursor :=
  c.nextOrBlank.2

lemma yields_ahead (c : Cursor) : Yields Reader.nextTrimmed c (ahead c) (past c) :=
  ⟨rfl, rfl⟩

lemma trim_ahead (c : Cursor) : Text.trim (ahead c) = ahead c :=
  trim_trim _

lemma ahead_ne_nil_iff {n : ℕ} :
    ahead ⟨n, lines⟩ ≠ [] ↔ ∃ line ∈ lines.head?, ¬ IsBlankLine line := by
  cases lines with
  | nil =>
    have hblank : ahead ⟨n, []⟩ = [] := rfl
    simp [hblank]
  | cons line below =>
    simp only [List.head?_cons, Option.mem_some_iff, exists_eq_left']
    rfl

lemma takeContinuation_of_atOther {below : List Text} (n : ℕ) (h : AtOther below) :
    Steps.takeContinuation n below = ([], ahead ⟨n, below⟩, past ⟨n, below⟩) := by
  cases below with
  | nil => rfl
  | cons line below => exact if_neg (h line rfl)

/-! ## Reading steps -/

lemma AdmitsElement.atOther {below : List Text} {text : Text}
    (h : AdmitsElement (e.mark k) x text) : AtOther (x ++ below) := by
  obtain ⟨h⟩ := h
  exact h.atOther

/-- Reading passes the lines of an element, and takes the line below them. -/
lemma read_element {text : Text} (case : Text) (h : AdmitsElement (e.mark k) x text) :
    ∃ lines, Steps.render lines = text ∧ ∀ n below, AtOther below →
      Yields (Steps.readElement e k (ahead ⟨n, x ++ below⟩) case) (past ⟨n, x ++ below⟩)
        (lines, ahead ⟨n + x.length, below⟩) (past ⟨n + x.length, below⟩) := by
  obtain ⟨@⟨first, text, dashes, hfirst, hdashes⟩⟩ := h
  refine ⟨Text.trim text :: dashes.map Text.trim, rfl, fun n below hbelow => ?_⟩
  have hahead : ahead ⟨n, first :: dashes ++ below⟩ = e.mark k ++ text := hfirst
  have hbody : Text.stripStart? (e.mark k) (Text.trim (ahead ⟨n, first :: dashes ++ below⟩)) =
      some text := by
    rw [trim_ahead, hahead, stripStart?_append]
  refine yields_bind_iff.mpr ⟨_, _, yields_require_iff.mpr ⟨hbody, rfl⟩, ?_⟩
  have hdashes : Steps.takeContinuation (n + 1) (dashes ++ below) =
      (dashes.map Text.trim, ahead ⟨n + (first :: dashes).length, below⟩,
        past ⟨n + (first :: dashes).length, below⟩) := by
    rw [takeContinuation_append _ _ hdashes, takeContinuation_of_atOther _ hbelow, List.append_nil,
      List.length_cons, Nat.add_assoc, Nat.add_comm 1]
  have hpast : past ⟨n, first :: dashes ++ below⟩ = ⟨n + 1, dashes ++ below⟩ := rfl
  simp only [hpast, Yields, hdashes]
  exact ⟨trivial, trivial⟩

/-- Reading fails at an element that is missing. -/
lemma read_unmarked (case : Text) (h : AtUnmarked (e.mark k) lines) (n : ℕ) :
    (Steps.readElement e k (ahead ⟨n, lines⟩) case (past ⟨n, lines⟩)).result =
      .error (e.missing k case) := by
  have hprefix : ¬ e.mark k <+: ahead ⟨n, lines⟩ := by
    cases lines with
    | nil => exact mt List.prefix_nil.mp (mark_ne_nil e k)
    | cons line below => exact h line rfl
  have hbody : Text.stripStart? (e.mark k) (Text.trim (ahead ⟨n, lines⟩)) = none := by
    rw [trim_ahead, stripStart?_eq_none hprefix]
  have hmissing : (Reader.require (Text.stripStart? (e.mark k) (Text.trim (ahead ⟨n, lines⟩)))
      (e.missing k case) (past ⟨n, lines⟩)).result = .error (e.missing k case) := by
    rw [hbody]
    rfl
  exact (bind_of_error _ hmissing).1

lemma read_step {step : Step} (case : Text) (h : AdmitsStep k x step) :
    ∃ triad, CaseBody.step triad = step ∧ ∀ n below, AtOther below →
      Yields (Steps.readTriad case k (ahead ⟨n, x ++ below⟩)) (past ⟨n, x ++ below⟩)
        (triad, ahead ⟨n + x.length, below⟩) (past ⟨n + x.length, below⟩) := by
  obtain @⟨x, y, z, action, expected, notes, haction, hexpected, hnotes⟩ := h
  replace hexpected : AdmitsElement (StepElement.expected.mark k) y expected := hexpected
  replace hnotes : AdmitsElement (StepElement.notes.mark k) z notes := hnotes
  obtain ⟨action, rfl, hreadAction⟩ := read_element (e := .action) case haction
  obtain ⟨expected, rfl, hreadExpected⟩ := read_element case hexpected
  obtain ⟨notes, rfl, hreadNotes⟩ := read_element case hnotes
  refine ⟨⟨action, expected, notes⟩, rfl, fun n below hbelow => ?_⟩
  have hlength : n + (x ++ (y ++ z)).length = n + x.length + y.length + z.length := by
    simp only [List.length_append, Nat.add_assoc]
  rw [List.append_assoc, List.append_assoc, hlength]
  refine yields_bind_iff.mpr ⟨_, _, hreadAction n _ hexpected.atOther, ?_⟩
  refine yields_bind_iff.mpr ⟨_, _, hreadExpected _ _ hnotes.atOther, ?_⟩
  refine yields_bind_iff.mpr ⟨_, _, hreadNotes _ _ hbelow, ?_⟩
  exact yields_pure_iff.mpr ⟨rfl, rfl⟩

/-- Reading fails at a step that is bad. -/
lemma read_badStep {below : List Text} {err : GrammarError} (h : BadStep case k below err) (n : ℕ) :
    (stepTriads case k (ahead ⟨n, below⟩) (past ⟨n, below⟩)).result = .error err := by
  rw [stepTriads_eq]
  apply (bind_of_error _ _).1
  cases h with
  | action hbelow => exact (bind_of_error _ (read_unmarked (e := .action) case hbelow n)).1
  | @expected x below action haction hother hbelow =>
    replace hbelow : AtUnmarked (StepElement.expected.mark k) below := hbelow
    obtain ⟨action, -, hreadAction⟩ := read_element (e := .action) case haction
    rw [Steps.readTriad, result_bind_of_yields (hreadAction n below hother)]
    exact (bind_of_error _ (read_unmarked case hbelow _)).1
  | @notes x y below action expected haction hexpected hother hbelow =>
    replace hexpected : AdmitsElement (StepElement.expected.mark k) y expected := hexpected
    replace hbelow : AtUnmarked (StepElement.notes.mark k) below := hbelow
    obtain ⟨action, -, hreadAction⟩ := read_element (e := .action) case haction
    obtain ⟨expected, -, hreadExpected⟩ := read_element case hexpected
    rw [Steps.readTriad, result_bind_of_yields (hreadAction n (y ++ below) hexpected.atOther),
      result_bind_of_yields (hreadExpected _ below hother)]
    exact (bind_of_error _ (read_unmarked case hbelow _)).1

/-- How a reader goes on that took the line below step `k` ahead. -/
def stepsBelow (case : Text) (k : ℕ) (c : Cursor) : Reading (List Triad) :=
  triadsAfter case k (ahead c) (past c)

lemma AdmitsSteps.atOther {steps : List Step} {below : List Text} (h : AdmitsSteps k x steps)
    (hbelow : AtOther below) : AtOther (x ++ below) := by
  cases h with
  | nil => exact hbelow
  | cons hstep hsteps =>
    obtain ⟨haction, -, -⟩ := hstep
    simp only [List.append_assoc]
    exact haction.atOther (e := .action)

lemma AdmitsStep.ahead_ne_nil {step : Step} (h : AdmitsStep k x step) (n : ℕ) (below : List Text) :
    ahead ⟨n, x ++ below⟩ ≠ [] := by
  obtain ⟨⟨⟨hfirst, -⟩⟩, -, -⟩ := h
  intro hblank
  have hmark := hfirst.symm.trans hblank
  exact mark_ne_nil .action k (List.append_eq_nil_iff.mp hmark).1

/-- Below a step that is read, the reader goes on with the line that it took ahead. -/
lemma stepTriads_of_yields {triad : Triad} {line next : Text} {c c' : Cursor}
    (h : Yields (Steps.readTriad case k line) c (triad, next) c') :
    Prepends [triad] (stepTriads case k line c) (triadsAfter case k next c') := by
  rw [stepTriads_eq, Prepends, (bind_of_yields h).1, (bind_of_yields h).2]
  exact prepends_cons triad (triadsAfter case k next) c'

/-- Reading passes the steps that the grammar admits, and has one line more. -/
lemma read_admitted {steps : List Step} (case : Text) (h : AdmitsSteps (k + 1) x steps) :
    ∃ triads, triads.map CaseBody.step = steps ∧ ∀ n below, AtOther below →
      Prepends triads (stepsBelow case k ⟨n, x ++ below⟩)
        (stepsBelow case (k + steps.length) ⟨n + x.length, below⟩) := by
  generalize hnext : k + 1 = next at h
  induction h generalizing k with
  | nil next => exact ⟨[], rfl, fun n below _ => prepends_nil _⟩
  | @cons next x y step steps hstep hsteps ih =>
    subst hnext
    obtain ⟨triad, rfl, hread⟩ := read_step case hstep
    obtain ⟨triads, rfl, hbelow⟩ := ih rfl
    refine ⟨triad :: triads, rfl, fun n below hother => ?_⟩
    have hfirst := stepTriads_of_yields (hread n (y ++ below) (hsteps.atOther hother))
    have hcount : k + (CaseBody.step triad :: triads.map CaseBody.step).length =
        k + 1 + (triads.map CaseBody.step).length := by
      rw [List.length_cons, Nat.add_assoc, Nat.add_comm 1]
    rw [List.append_assoc, List.length_append, ← Nat.add_assoc, hcount, stepsBelow, triadsAfter,
      if_neg (hstep.ahead_ne_nil n _)]
    exact hfirst.append (hbelow (n + x.length) below hother)

/-! ## Lines in general -/

lemma exists_dashes (lines : List Text) :
    ∃ dashes below, lines = dashes ++ below ∧ (∀ line ∈ dashes, IsDashLine line) ∧
      AtOther below := by
  rcases exists_first_not IsDashLine lines with hall | ⟨dashes, line, below, rfl, hdashes, hline⟩
  · exact ⟨lines, [], (List.append_nil lines).symm, hall, by simp [AtOther]⟩
  · exact ⟨dashes, line :: below, rfl, hdashes, by simpa [AtOther] using hline⟩

/-- An element stands at the front of the lines, or its mark is missing there. -/
lemma element_or_unmarked (mark : Text) (lines : List Text) :
    (∃ x text below, lines = x ++ below ∧ AdmitsElement mark x text ∧ AtOther below) ∨
      AtUnmarked mark lines := by
  cases lines with
  | nil => exact .inr (by simp [AtUnmarked])
  | cons first lines =>
    by_cases hmark : mark <+: Text.trim first
    · obtain ⟨text, htext⟩ := hmark
      obtain ⟨dashes, below, rfl, hdashes, hother⟩ := exists_dashes lines
      exact .inl ⟨first :: dashes, _, below, rfl, .mk (.mk htext.symm hdashes), hother⟩
    · exact .inr (by simpa [AtUnmarked] using hmark)

/-- A step stands at the front of the lines, or a bad one. -/
lemma step_or_bad (case : Text) (k : ℕ) (lines : List Text) :
    (∃ x step below, lines = x ++ below ∧ AdmitsStep k x step ∧ AtOther below) ∨
      ∃ e, BadStep case k lines e := by
  rcases element_or_unmarked (stepMark k) lines with
    ⟨x, action, below, rfl, haction, hother⟩ | hmissing
  swap
  · exact .inr ⟨_, .action hmissing⟩
  rcases element_or_unmarked "ER:" below with
    ⟨y, expected, below, rfl, hexpected, hother'⟩ | hmissing
  swap
  · exact .inr ⟨_, .expected haction hother hmissing⟩
  rcases element_or_unmarked "Notes:" below with
    ⟨z, notes, below, rfl, hnotes, hbelow⟩ | hmissing
  swap
  · exact .inr ⟨_, .notes haction hexpected hother' hmissing⟩
  refine .inl ⟨x ++ (y ++ z), _, below, ?_, .mk haction hexpected hnotes, hbelow⟩
  simp only [List.append_assoc]

lemma AdmitsStep.ne_nil {step : Step} (h : AdmitsStep k x step) : x ≠ [] := by
  obtain ⟨⟨⟨-, -⟩⟩, -, -⟩ := h
  exact List.cons_ne_nil _ _

/-- Below an element, the lines go on as steps up to a blank line or the end, or up to a bad
step. -/
lemma steps_or_bad (case : Text) (k : ℕ) (h : AtOther lines) :
    ∃ x steps below, lines = x ++ below ∧ AdmitsSteps k x steps ∧
      ((∀ line ∈ below.head?, IsBlankLine line) ∨
        GoesOn below ∧ ∃ e, BadStep case (k + steps.length) below e) := by
  induction hlen : lines.length using Nat.strongRecOn generalizing k lines with
  | ind len ih =>
    subst hlen
    by_cases hblank : ∀ line ∈ lines.head?, IsBlankLine line
    · exact ⟨[], [], lines, rfl, .nil k, .inl hblank⟩
    rcases step_or_bad case k lines with ⟨x, step, rest, rfl, hstep, hother⟩ | hbad
    · have hlt : rest.length < (x ++ rest).length := by
        have hpos := List.length_pos_iff.mpr hstep.ne_nil
        rw [List.length_append]
        omega
      obtain ⟨y, steps, below, rfl, hsteps, hend⟩ := ih rest.length hlt (k + 1) hother rfl
      refine ⟨x ++ y, step :: steps, below, (List.append_assoc x y below).symm,
        .cons hstep hsteps, ?_⟩
      rw [List.length_cons, ← Nat.add_assoc, Nat.add_right_comm]
      exact hend
    · refine ⟨[], [], lines, rfl, .nil k, .inr ⟨?_, hbad⟩⟩
      push Not at hblank
      obtain ⟨line, hline, hblank⟩ := hblank
      exact ⟨line, hline, hblank, h line hline⟩

lemma accepted_or_rejected_steps (case : Text) (lines : List Text) :
    (∃ steps rest, AcceptedSteps lines steps rest) ∨ ∃ e, RejectedSteps case lines e := by
  cases lines with
  | nil => exact .inr ⟨_, .header (by simp)⟩
  | cons header lines =>
    by_cases hheader : IsStepsHeader header
    swap
    · exact .inr ⟨_, .header (by simpa using hheader)⟩
    -- one step at least has to stand below the header
    rcases step_or_bad case 1 lines with ⟨x, step, below, rfl, hstep, hother⟩ | ⟨e, hbad⟩
    swap
    · exact .inr ⟨e, .first hheader hbad⟩
    obtain ⟨y, steps, below, rfl, hsteps, hend | ⟨hgoes, e, hbad⟩⟩ := steps_or_bad case 2 hother
    · left
      have hsteps := AdmitsSteps.cons hstep hsteps
      have hne := List.cons_ne_nil step steps
      cases below with
      | nil =>
        refine ⟨step :: steps, [], ?_⟩
        rw [List.append_nil]
        exact .atEnd hheader hsteps hne
      | cons blank rest =>
        refine ⟨step :: steps, rest, ?_⟩
        rw [← List.append_assoc]
        exact .atBlank hheader hsteps hne (hend blank rfl)
    · right
      refine ⟨e, ?_⟩
      rw [← List.append_assoc]
      refine .later hheader (.cons hstep hsteps) (List.cons_ne_nil _ _) hgoes ?_
      rwa [List.length_cons, Nat.add_assoc, Nat.add_comm]

/-! ## Steps -/

lemma read_stepsHeader (case : Text) {header : Text} (h : IsStepsHeader header) (n : ℕ)
    (below : List Text) :
    (Steps.read case ⟨n, header :: below⟩).result =
        (stepTriads case 1 (ahead ⟨n + 1, below⟩) (past ⟨n + 1, below⟩)).result ∧
      (Steps.read case ⟨n, header :: below⟩).cursor =
        (stepTriads case 1 (ahead ⟨n + 1, below⟩) (past ⟨n + 1, below⟩)).cursor := by
  have hheader : Section.isHeader Steps.label (Text.trim header) = true := startsWith_iff.mpr h
  have htakes : Takes (Section.expectHeader Steps.label case false) [header] () :=
    takes_expectHeader false hheader
  have hread := htakes.yields (Section.forward_expectHeader Steps.label case false) n below
  have hheader := bind_of_yields (f := fun _ => Reader.nextTrimmed >>= stepTriads case 1) hread
  have hahead := bind_of_yields (f := stepTriads case 1) (yields_ahead ⟨n + 1, below⟩)
  exact ⟨hheader.1.trans hahead.1, hheader.2.trans hahead.2⟩

lemma read_belowHeader (case : Text) {header : Text} {below : List Text}
    (h : IsStepsHeader header) {n : ℕ}
    (hahead : ahead ⟨n + 1, below⟩ ≠ []) :
    (Steps.read case ⟨n, header :: below⟩).result = (stepsBelow case 0 ⟨n + 1, below⟩).result ∧
      (Steps.read case ⟨n, header :: below⟩).cursor =
        (stepsBelow case 0 ⟨n + 1, below⟩).cursor := by
  have hread := read_stepsHeader case h n below
  rwa [stepsBelow, triadsAfter, if_neg hahead]

lemma AdmitsSteps.ahead_ne_nil {steps : List Step} (h : AdmitsSteps k x steps) (hne : steps ≠ [])
    (n : ℕ) (below : List Text) : ahead ⟨n, x ++ below⟩ ≠ [] := by
  cases h with
  | nil => exact absurd rfl hne
  | cons hstep hsteps =>
    rw [List.append_assoc]
    exact hstep.ahead_ne_nil n _

/-- Reading succeeds on steps that the grammar accepts: it has them in order, and stops below the
blank line that ends them, or at the end. -/
lemma read_acceptedSteps {steps : List Step} (case : Text) (h : AcceptedSteps lines steps rest)
    (n : ℕ) :
    ∃ triads, Yields (Steps.read case) ⟨n, lines⟩ triads ⟨n + (lines.length - rest.length), rest⟩ ∧
      triads.map CaseBody.step = steps := by
  -- below the steps the reader has taken a blank line, or is at the end
  have hend {header : Text} {x below : List Text} {c : Cursor} (hheader : IsStepsHeader header)
      (hsteps : AdmitsSteps 1 x steps) (hne : steps ≠ []) (hother : AtOther below)
      (hahead : ahead ⟨n + 1 + x.length, below⟩ = []) (hpast : past ⟨n + 1 + x.length, below⟩ = c) :
      ∃ triads, Yields (Steps.read case) ⟨n, header :: (x ++ below)⟩ triads c ∧
        triads.map CaseBody.step = steps := by
    obtain ⟨triads, rfl, hread⟩ := read_admitted case hsteps
    have hstop (k : ℕ) : stepsBelow case k ⟨n + 1 + x.length, below⟩ = ⟨.ok [], c, []⟩ := by
      rw [stepsBelow, triadsAfter, if_pos hahead, hpast]
      rfl
    have hread := hread (n + 1) below hother
    rw [hstop] at hread
    obtain ⟨hresult, hcursor⟩ := hread.of_nil rfl rfl
    obtain ⟨hresult', hcursor'⟩ :=
      read_belowHeader case hheader (hsteps.ahead_ne_nil hne (n + 1) below)
    exact ⟨triads, ⟨hresult'.trans hresult, hcursor'.trans hcursor⟩, rfl⟩
  cases h with
  | @atBlank header blank x rest steps hheader hsteps hne hblank =>
    apply hend hheader hsteps hne
    · exact AtBlank.atOther ⟨blank, rest, rfl, hblank⟩
    · exact hblank
    · have hlength : n + ((header :: (x ++ blank :: rest)).length - rest.length) =
          n + 1 + x.length + 1 := by
        simp
        omega
      rw [hlength]
      rfl
  | @atEnd header x steps hheader hsteps hne =>
    have hother : AtOther ([] : List Text) := by simp [AtOther]
    obtain ⟨triads, hread, htriads⟩ := hend hheader hsteps hne hother rfl rfl
    refine ⟨triads, ?_, htriads⟩
    have hlength : n + ((header :: x).length - ([] : List Text).length) = n + 1 + x.length := by
      simp
      omega
    rw [List.append_nil] at hread
    rwa [hlength]

/-- Reading fails on lines that the grammar rejects. -/
lemma read_rejectedSteps {err : GrammarError} (h : RejectedSteps case lines err) (n : ℕ) :
    (Steps.read case ⟨n, lines⟩).result = .error err := by
  cases h with
  | header hheader => exact (bind_of_error _ (expectHeader_missing hheader n)).1
  | @first header below err hheader hbad =>
    rw [(read_stepsHeader case hheader n below).1, read_badStep hbad]
  | @later header x below steps err hheader hsteps hne hgoes hbad =>
    obtain ⟨triads, htriads, hread⟩ := read_admitted case hsteps
    obtain ⟨line, hline, hblank, hdash⟩ := hgoes
    have hother : AtOther below := by
      intro other hother
      cases Option.mem_unique hline hother
      exact hdash
    have hahead : ahead ⟨n + 1 + x.length, below⟩ ≠ [] := ahead_ne_nil_iff.mpr ⟨line, hline, hblank⟩
    rw [(read_belowHeader case hheader (hsteps.ahead_ne_nil hne (n + 1) below)).1]
    apply (hread (n + 1) below hother).of_error
    rw [stepsBelow, triadsAfter, if_neg hahead, Nat.zero_add, read_badStep hbad]

/-- Reading the steps accepts exactly their grammar. It succeeds with what the catalogue shows of
them and stops at the place that the grammar gives, and fails with the error that the grammar
gives. -/
theorem read_steps_iff (case : Text) (n : ℕ) (lines : List Text) :
    (∀ steps c,
      (∃ triads, Yields (Steps.read case) ⟨n, lines⟩ triads c ∧
        triads.map CaseBody.step = steps) ↔
      ∃ rest, AcceptedSteps lines steps rest ∧ c = ⟨n + (lines.length - rest.length), rest⟩) ∧
    ∀ e, (Steps.read case ⟨n, lines⟩).result = .error e ↔ RejectedSteps case lines e := by
  apply yields_iff_and_error_iff
  · rintro steps c ⟨rest, haccepted, rfl⟩
    exact read_acceptedSteps case haccepted n
  · exact fun hrejected => read_rejectedSteps hrejected n
  · rcases accepted_or_rejected_steps case lines with ⟨steps, rest, haccepted⟩ | hrejected
    · exact .inl ⟨steps, _, rest, haccepted, rfl⟩
    · exact .inr hrejected

end TestCatalog.Proofs
