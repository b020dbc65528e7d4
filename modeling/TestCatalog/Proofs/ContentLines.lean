import TestCatalog.Proofs.DraftReading
import TestCatalog.Proofs.PrefixCodes

/-!
# Lines of contents

The lines of a case hold the contents of its sections and its steps, whatever reads them: each line
and each table is a content, and each step is three elements behind their marks. The same lines do
not hold two different contents.
-/

namespace TestCatalog.Proofs

/-- What a case says apart from its name, its projects and its layout. -/
structure Contents where
  description : List Content
  prerequisites : List Content
  testData : List Content
  /-- The lines of each element of the steps, without blanks at their ends. -/
  steps : List Triad

/-! ## What lines hold -/

def IsBlankLine (line : Text) : Prop :=
  Text.trim line = []

def IsDashLine (line : Text) : Prop :=
  Text.startsWith "-" (Text.trim line)

/-- A line that is not blank and opens no table, or the lines of a table, from the one that opens it
to the one that closes it. -/
inductive HoldsContent : List Text → Content → Prop where
  | line {line : Text} (hblank : ¬ IsBlankLine line) (hopener : Text.trim line ≠ Table.opener) :
      HoldsContent [line] (.line (Text.trim line))
  | table {first last : Text} {rows : List Text} (hfirst : Text.trim first = Table.opener)
      (hrows : ∀ row ∈ rows, ¬ IsBlankLine row ∧ Text.trim row ≠ Table.closer)
      (hlast : Text.trim last = Table.closer) :
      HoldsContent (first :: rows ++ [last]) (.table (rows.map cellTexts))

/-- An element is a line that starts with its mark, and dash lines. -/
inductive HoldsElement (mark : Text) : List Text → List Text → Prop where
  | mk {first text : Text} {dashes : List Text} (hfirst : Text.trim first = mark ++ text)
      (hdashes : ∀ line ∈ dashes, IsDashLine line) :
      HoldsElement mark (first :: dashes) (Text.trim text :: dashes.map Text.trim)

/-- The three elements of step `count`. -/
inductive HoldsTriad (count : ℕ) : List Text → Triad → Prop where
  | mk {x y z action expected notes : List Text}
      (haction : HoldsElement (StepElement.action.mark count) x action)
      (hexpected : HoldsElement (StepElement.expected.mark count) y expected)
      (hnotes : HoldsElement (StepElement.notes.mark count) z notes) :
      HoldsTriad count (x ++ (y ++ z)) ⟨action, expected, notes⟩

/-- Steps that are numbered from `count` on. -/
inductive HoldsTriads : (count : ℕ) → List Text → List Triad → Prop where
  | nil (count : ℕ) : HoldsTriads count [] []
  | cons {count : ℕ} {x y : List Text} {t : Triad} {ts : List Triad} (head : HoldsTriad count x t)
      (tail : HoldsTriads (count + 1) y ts) : HoldsTriads count (x ++ y) (t :: ts)

/-- A part of a case is its header, the lines of what it holds, and a blank line. -/
inductive HoldsPart {β : Type} (label : Text) (R : List Text → β → Prop) :
    List Text → β → Prop where
  | mk {header blank : Text} {x : List Text} {b : β}
      (hheader : Section.isHeader label (Text.trim header)) (held : R x b)
      (hblank : IsBlankLine blank) : HoldsPart label R (header :: x ++ [blank]) b

/-- A section holds its contents one after the other. -/
def HoldsSection (s : Section) : List Text → List Content → Prop :=
  HoldsPart s.label (Coded HoldsContent)

def HoldsSteps : List Text → List Triad → Prop :=
  HoldsPart Steps.label (HoldsTriads 1)

/-- The lines below a header: the opening of the documentation, the three sections, the steps, and
the projects line. -/
inductive HoldsContents (d : Dialect) (header : Text) : List Text → Contents → Prop where
  | mk {x₀ x₁ x₂ x₃ x₄ : List Text} {projects : Text}
      {description prerequisites testData : List Content} {steps : List Triad}
      (hopening : Takes (d.expectOpening header (d.nameOfHeader header)) x₀ ())
      (hdescription : HoldsSection .description x₁ description)
      (hprerequisites : HoldsSection .prerequisites x₂ prerequisites)
      (htestData : HoldsSection .testData x₃ testData)
      (hsteps : HoldsSteps x₄ steps)
      (hprojects : Projects.mark <+: Text.trim projects) :
      HoldsContents d header (x₀ ++ (x₁ ++ (x₂ ++ (x₃ ++ (x₄ ++ [projects])))))
        ⟨description, prerequisites, testData, steps⟩

/-! ## Lines hold one thing only -/

/-- The next line is blank. -/
def AtBlank (x : List Text) : Prop :=
  ∃ line rest, x = line :: rest ∧ IsBlankLine line

/-- A part holds one thing only, if what stands before its blank line does. -/
lemma HoldsPart.unique {β : Type} {label : Text} {R : List Text → β → Prop} {x x' u u' : List Text}
    {b b' : β} (h : HoldsPart label R x b) (h' : HoldsPart label R x' b')
    (hR : ∀ {y y' v v' : List Text}, R y b → R y' b' → AtBlank v → AtBlank v' → y ++ v = y' ++ v' →
      b = b' ∧ v = v')
    (heq : x ++ u = x' ++ u') : b = b' ∧ u = u' := by
  obtain ⟨-, held, hblank⟩ := h
  obtain ⟨-, held', hblank'⟩ := h'
  simp only [List.cons_append, List.append_assoc, List.cons.injEq, List.nil_append] at heq
  obtain ⟨hvalue, hrest⟩ := hR held held' ⟨_, _, rfl, hblank⟩ ⟨_, _, rfl, hblank'⟩ heq.2
  exact ⟨hvalue, (List.cons.inj hrest).2⟩

lemma prefixCode_holdsContent : PrefixCode HoldsContent (fun _ => True) AtBlank where
  unique := by
    intro x x' u u' content content' h h' _ _ heq
    cases h with
    | line hblank hopener =>
      cases h' with
      | line hblank' hopener' =>
        obtain ⟨rfl, rfl⟩ := List.cons.inj heq
        exact ⟨rfl, rfl⟩
      | table hfirst hrows hlast =>
        obtain ⟨rfl, -⟩ := List.cons.inj heq
        exact absurd hfirst hopener
    | @table first last rows hfirst hrows hlast =>
      cases h' with
      | line hblank' hopener' =>
        obtain ⟨rfl, -⟩ := List.cons.inj heq
        exact absurd hfirst hopener'
      | @table first' last' rows' hfirst' hrows' hlast' =>
        have hrest : rows ++ last :: u = rows' ++ last' :: u' := by
          simpa using (List.cons.inj heq).2
        obtain ⟨rfl, hend⟩ := append_inj_of_head? (p := (Text.trim · = Table.closer))
          (fun row hrow => (hrows row hrow).2) (fun row hrow => (hrows' row hrow).2)
          (by simpa using hlast) (by simpa using hlast') hrest
        exact ⟨rfl, (List.cons.inj hend).2⟩
  after := fun _ _ => trivial
  after_stop := fun _ => trivial
  stop := by
    rintro x u content h - ⟨line, rest, heq, hline⟩
    cases h with
    | line hblank hopener =>
      obtain ⟨rfl, -⟩ := List.cons.inj heq
      exact hblank hline
    | table hfirst hrows hlast =>
      obtain ⟨rfl, -⟩ := List.cons.inj heq
      rw [IsBlankLine, hfirst] at hline
      exact absurd hline (by decide)

lemma HoldsSection.unique {s : Section} {x x' u u' : List Text} {contents contents' : List Content}
    (h : HoldsSection s x contents) (h' : HoldsSection s x' contents') (heq : x ++ u = x' ++ u') :
    contents = contents' ∧ u = u' :=
  HoldsPart.unique h h' prefixCode_holdsContent.unique_list heq

/-- The next line, if there is one, is no dash line. -/
def AtOther (x : List Text) : Prop :=
  ∀ line ∈ x.head?, ¬ IsDashLine line

lemma AtBlank.atOther {x : List Text} (h : AtBlank x) : AtOther x := by
  obtain ⟨blank, rest, rfl, hblank⟩ := h
  intro line hline
  obtain rfl := Option.some.inj hline
  rw [IsDashLine, hblank]
  decide

lemma HoldsElement.atOther {e : StepElement} {count : ℕ} {x u lines : List Text}
    (h : HoldsElement (e.mark count) x lines) : AtOther (x ++ u) := by
  obtain ⟨hfirst, -⟩ := h
  intro line hline
  obtain rfl := Option.some.inj hline
  exact not_startsWith_dash (startsWith_iff.mpr ⟨_, hfirst.symm⟩)

lemma HoldsElement.unique {mark : Text} {x x' u u' lines lines' : List Text}
    (h : HoldsElement mark x lines) (h' : HoldsElement mark x' lines') (hu : AtOther u)
    (hu' : AtOther u') (heq : x ++ u = x' ++ u') : lines = lines' ∧ u = u' := by
  obtain @⟨first, text, dashes, hfirst, hdashes⟩ := h
  obtain @⟨first', text', dashes', hfirst', hdashes'⟩ := h'
  obtain ⟨rfl, hrest⟩ := List.cons.inj heq
  obtain rfl := List.append_cancel_left (hfirst.symm.trans hfirst')
  obtain ⟨rfl, hend⟩ := append_inj_of_head? (p := (¬ IsDashLine ·))
    (fun line hline => not_not_intro (hdashes line hline))
    (fun line hline => not_not_intro (hdashes' line hline)) hu hu' hrest
  exact ⟨rfl, hend⟩

lemma HoldsTriad.unique {count : ℕ} {x x' u u' : List Text} {t t' : Triad}
    (h : HoldsTriad count x t) (h' : HoldsTriad count x' t') (hu : AtOther u) (hu' : AtOther u')
    (heq : x ++ u = x' ++ u') : t = t' ∧ u = u' := by
  obtain ⟨haction, hexpected, hnotes⟩ := h
  obtain ⟨haction', hexpected', hnotes'⟩ := h'
  simp only [List.append_assoc] at heq
  obtain ⟨rfl, heq⟩ := haction.unique haction' hexpected.atOther hexpected'.atOther heq
  obtain ⟨rfl, heq⟩ := hexpected.unique hexpected' hnotes.atOther hnotes'.atOther heq
  obtain ⟨rfl, heq⟩ := hnotes.unique hnotes' hu hu' heq
  exact ⟨rfl, heq⟩

lemma HoldsTriads.atOther {count : ℕ} {x u : List Text} {ts : List Triad}
    (h : HoldsTriads count x ts) (hu : AtBlank u) : AtOther (x ++ u) := by
  cases h with
  | nil => exact hu.atOther
  | cons head tail =>
    obtain ⟨haction, -, -⟩ := head
    simp only [List.append_assoc]
    exact haction.atOther

lemma HoldsTriads.unique {count : ℕ} {x x' u u' : List Text} {ts ts' : List Triad}
    (h : HoldsTriads count x ts) (h' : HoldsTriads count x' ts') (hu : AtBlank u) (hu' : AtBlank u')
    (heq : x ++ u = x' ++ u') : ts = ts' ∧ u = u' := by
  -- a step begins with its number, so that no step begins at a blank line
  have happart {count : ℕ} {x y u v : List Text} {t : Triad} (head : HoldsTriad count x t)
      (hv : AtBlank v) (hlines : v = x ++ y ++ u) : False := by
    obtain ⟨⟨hfirst, -⟩, -, -⟩ := head
    obtain ⟨blank, rest, rfl, hblank⟩ := hv
    obtain ⟨rfl, -⟩ := List.cons.inj hlines
    have hmark := hfirst.symm.trans hblank
    exact mark_ne_nil .action count (List.append_eq_nil_iff.mp hmark).1
  induction h generalizing x' ts' with
  | nil count =>
    cases h' with
    | nil => exact ⟨rfl, heq⟩
    | cons head' tail' => exact (happart head' hu heq).elim
  | cons head tail ih =>
    cases h' with
    | nil => exact (happart head hu' heq.symm).elim
    | cons head' tail' =>
      simp only [List.append_assoc] at heq
      obtain ⟨rfl, hrest⟩ := head.unique head' (tail.atOther hu) (tail'.atOther hu') heq
      obtain ⟨rfl, hend⟩ := ih tail' hrest
      exact ⟨rfl, hend⟩

lemma HoldsSteps.unique {x x' u u' : List Text} {ts ts' : List Triad} (h : HoldsSteps x ts)
    (h' : HoldsSteps x' ts') (heq : x ++ u = x' ++ u') : ts = ts' ∧ u = u' :=
  HoldsPart.unique h h' HoldsTriads.unique heq

/-- The lines of a case do not hold two different contents. -/
theorem HoldsContents.unique {d : Dialect} {header : Text} {x : List Text}
    {contents contents' : Contents} (h : HoldsContents d header x contents)
    (h' : HoldsContents d header x contents') : contents = contents' := by
  generalize hlines : x = x' at h'
  obtain ⟨hopening, hdescription, hprerequisites, htestData, hsteps, -⟩ := h
  obtain ⟨hopening', hdescription', hprerequisites', htestData', hsteps', -⟩ := h'
  obtain ⟨-, hlines⟩ := hopening.unique hopening' hlines
  obtain ⟨rfl, hlines⟩ := hdescription.unique hdescription' hlines
  obtain ⟨rfl, hlines⟩ := hprerequisites.unique hprerequisites' hlines
  obtain ⟨rfl, hlines⟩ := htestData.unique htestData' hlines
  obtain ⟨rfl, -⟩ := hsteps.unique hsteps' hlines
  rfl

end TestCatalog.Proofs
