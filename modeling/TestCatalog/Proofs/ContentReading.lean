import TestCatalog.Proofs.ContentLines
import TestCatalog.Proofs.TakenLines

/-!
# Reading contents

What a reader makes of the lines that it takes are the contents that the lines hold: no line is
dropped, and none is read twice.
-/

namespace TestCatalog.Proofs

/-! ## What readers make of sections -/

lemma exists_of_takeRows {n : ℕ} {x u rows : List Text} {c : Cursor}
    (h : Table.takeRows n (x ++ u) = (some rows, c)) (hc : c.rest = u) :
    ∃ ls last, x = ls ++ [last] ∧ rows = ls.map Text.trim ∧
      (∀ row ∈ ls, ¬ IsBlankLine row ∧ Text.trim row ≠ Table.closer) ∧
      Text.trim last = Table.closer := by
  induction x generalizing n rows with
  | nil =>
    cases u with
    | nil => cases h
    | cons line rest =>
      have hreach := takeRows_cons_reaches n line rest
      rw [← List.nil_append (line :: rest), h] at hreach
      exact absurd hc (rest_ne_cons hreach)
  | cons line x ih =>
    rw [List.cons_append, Table.takeRows] at h
    dsimp only at h
    split_ifs at h with hblank hcloser
    · cases h
    · obtain ⟨hrows, rfl⟩ := Prod.mk.inj h
      obtain rfl : x = [] := by simpa using hc
      cases hrows
      exact ⟨[], line, rfl, rfl, by simp, hcloser⟩
    · rcases hbelow : Table.takeRows (n + 1) (x ++ u) with ⟨found, c'⟩
      rw [hbelow] at h
      obtain ⟨hrows, rfl⟩ := Prod.mk.inj h
      obtain ⟨others, rfl, rfl⟩ := Option.map_eq_some_iff.mp hrows
      obtain ⟨ls, last, rfl, rfl, hrow, hlast⟩ := ih hbelow
      exact ⟨line :: ls, last, rfl, rfl, List.forall_mem_cons.mpr ⟨⟨hblank, hcloser⟩, hrow⟩, hlast⟩

lemma Takes.of_readTable {label case : Text} {x rows : List Text}
    (h : Takes (Table.read label case) x rows) {first : Text}
    (hfirst : Text.trim first = Table.opener) :
    HoldsContent (first :: x) (Content.ofItem (.table rows)) := by
  obtain ⟨m, hm⟩ := h 0 []
  obtain ⟨htaken, -⟩ := yields_readTable_iff.mp hm
  obtain ⟨ls, last, rfl, rfl, hrow, hlast⟩ := exists_of_takeRows htaken rfl
  rw [Content.ofItem, map_cellTexts_trim]
  exact .table hfirst hrow hlast

lemma steady_itemsBelow (s : Section) (case : Text) (k : ℕ) (text : Text) :
    Steady (itemsBelow s case k text) := by
  have hitem (item : Item) (k : ℕ) :
      Steady (do let items ← sectionItems s case k; pure (item :: items)) :=
    steady_bind (steady_sectionItems s case k) fun _ => steady_pure _
  unfold itemsBelow
  split_ifs
  · exact steady_pure _
  · exact steady_bind (steady_readTable _ _) fun _ => hitem _ k
  · exact hitem _ k
  · exact hitem _ (k + 1)
  · exact hitem _ k
  · exact steady_fail _

lemma Takes.of_sectionItems_cons {s : Section} {case : Text} {k : ℕ} {x : List Text}
    {items : List Item} (h : Takes (sectionItems s case k) x items) :
    ∃ line y, x = line :: y ∧ Takes (itemsBelow s case k (Text.trim line)) y items := by
  obtain ⟨m, hm⟩ := h 0 [[]]
  cases x with
  | nil =>
    rw [List.nil_append, Yields, sectionItems_cons] at hm
    have hreach := forward_itemsBelow s case k (Text.trim []) ⟨1, []⟩
    rw [hm.2] at hreach
    exact absurd rfl (rest_ne_cons hreach)
  | cons line y =>
    rw [List.cons_append, Yields, sectionItems_cons] at hm
    exact ⟨line, y, rfl, Yields.takes (steady_itemsBelow _ _ _ _) hm (by simp)⟩

/-- The lines that a section takes below its header hold the contents of its items. -/
lemma Takes.of_sectionItems {s : Section} {case : Text} {k : ℕ} {x : List Text} {items : List Item}
    (h : Takes (sectionItems s case k) x items) :
    ∃ y blank, x = y ++ [blank] ∧ Coded HoldsContent y (items.map Content.ofItem) ∧
      IsBlankLine blank := by
  induction hlength : x.length using Nat.strongRecOn generalizing k x items with
  | ind length ih =>
    obtain ⟨line, y, rfl, hbelow⟩ := h.of_sectionItems_cons
    have hline {k : ℕ} (hblank : ¬ IsBlankLine line) (hopener : Text.trim line ≠ Table.opener)
        (hbelow : Takes (do
          let items ← sectionItems s case k
          pure (Item.line (Text.trim line) :: items)) y items) :
        ∃ z blank, line :: y = z ++ [blank] ∧ Coded HoldsContent z (items.map Content.ofItem) ∧
          IsBlankLine blank := by
      obtain ⟨others, hothers, rfl⟩ := hbelow.of_map (steady_sectionItems s case k)
      obtain ⟨z, blank, rfl, held, hend⟩ := ih _ (hlength ▸ Nat.lt_succ_self _) hothers rfl
      exact ⟨line :: z, blank, rfl, .cons (.line hblank hopener) held, hend⟩
    unfold itemsBelow at hbelow
    split_ifs at hbelow with hblank hopener
    · obtain ⟨rfl, rfl⟩ := hbelow.of_pure
      exact ⟨[], line, rfl, .nil, hblank⟩
    · obtain ⟨rows, x₁, x₂, rfl, hrows, hbelow⟩ := hbelow.of_bind (steady_readTable _ _) fun _ =>
        steady_bind (steady_sectionItems s case k) fun _ => steady_pure _
      obtain ⟨others, hothers, rfl⟩ := hbelow.of_map (steady_sectionItems s case k)
      have hlt : x₂.length < length := by
        rw [← hlength, List.length_cons, List.length_append]
        omega
      obtain ⟨z, blank, rfl, held, hend⟩ := ih _ hlt hothers rfl
      refine ⟨(line :: x₁) ++ z, blank, by simp, ?_, hend⟩
      exact .cons (hrows.of_readTable hopener) held
    · exact hline hblank hopener hbelow
    · exact hline hblank hopener hbelow
    · exact hline hblank hopener hbelow
    · exact hbelow.of_fail.elim

lemma Takes.of_readSection {s : Section} {case : Text} {x : List Text} {items : List Item}
    (h : Takes (s.read case) x items) :
    HoldsSection s x (items.map Content.ofItem) := by
  obtain ⟨_, x₁, x₂, rfl, hheader, hitems⟩ :=
    h.of_bind (steady_expectHeader _ _ _) fun _ => steady_sectionItems s case 1
  obtain ⟨header, rfl, hlabel⟩ := hheader.of_expectHeader
  obtain ⟨y, blank, rfl, held, hblank⟩ := hitems.of_sectionItems
  exact .mk hlabel held hblank

/-! ## What readers make of steps -/

lemma exists_of_takeContinuation {n : ℕ} {x u lines : List Text} {next : Text} {c : Cursor}
    (h : Steps.takeContinuation n (x ++ u) = (lines, next, c)) (hc : c.rest = u) (hu : u ≠ []) :
    ∃ dashes last, x = dashes ++ [last] ∧ lines = dashes.map Text.trim ∧
      (∀ line ∈ dashes, IsDashLine line) ∧ next = Text.trim last := by
  induction x generalizing n lines with
  | nil =>
    obtain ⟨line, rest, rfl⟩ := List.exists_cons_of_ne_nil hu
    have hreach := takeContinuation_cons_reaches n line rest
    rw [← List.nil_append (line :: rest), h] at hreach
    exact absurd hc (rest_ne_cons hreach)
  | cons line x ih =>
    rw [List.cons_append, Steps.takeContinuation] at h
    dsimp only at h
    split_ifs at h with hdash
    · rcases hbelow : Steps.takeContinuation (n + 1) (x ++ u) with ⟨others, next', c'⟩
      rw [hbelow] at h
      simp only [Prod.mk.injEq] at h
      obtain ⟨rfl, rfl, rfl⟩ := h
      obtain ⟨dashes, last, rfl, rfl, hdashes, hnext⟩ := ih hbelow
      exact ⟨line :: dashes, last, rfl, rfl, List.forall_mem_cons.mpr ⟨hdash, hdashes⟩, hnext⟩
    · simp only [Prod.mk.injEq] at h
      obtain ⟨rfl, rfl, rfl⟩ := h
      obtain rfl : x = [] := by simpa using hc
      exact ⟨[], line, rfl, rfl, by simp, rfl⟩

/-- An element is on its first line, which is already taken, and on the lines that its reader takes,
but for the last one, where the next element begins. -/
lemma Takes.of_readElement {e : StepElement} {count : ℕ} {line case next : Text}
    {x lines : List Text} (h : Takes (Steps.readElement e count line case) x (lines, next)) :
    ∃ dashes last, x = dashes ++ [last] ∧ next = Text.trim last ∧
      ∀ first, Text.trim first = Text.trim line →
        HoldsElement (e.mark count) (first :: dashes) lines := by
  obtain ⟨m, hm⟩ := h 0 [[]]
  obtain ⟨text, c, hrequire, hlines⟩ := yields_bind_iff.mp hm
  obtain ⟨hmark, rfl⟩ := yields_require_iff.mp hrequire
  rcases htaken : Steps.takeContinuation 0 (x ++ [[]]) with ⟨dashes, next', c⟩
  simp only [Yields, htaken, Except.ok.injEq, Prod.mk.injEq] at hlines
  obtain ⟨⟨rfl, rfl⟩, rfl⟩ := hlines
  obtain ⟨dashes, last, rfl, rfl, hdashes, rfl⟩ := exists_of_takeContinuation htaken rfl (by simp)
  refine ⟨dashes, last, rfl, rfl, fun first hfirst => ?_⟩
  exact .mk (hfirst.trans (stripStart?_eq_some hmark)) hdashes

lemma Takes.of_readTriad {count : ℕ} {line case next : Text} {x : List Text} {t : Triad}
    (h : Takes (Steps.readTriad case count line) x (t, next)) :
    ∃ y last, x = y ++ [last] ∧ next = Text.trim last ∧
      ∀ first, Text.trim first = Text.trim line → HoldsTriad count (first :: y) t := by
  obtain ⟨⟨action, next₁⟩, x₁, x', rfl, h₁, h⟩ := h.of_bind (steady_readElement _ _ _ _) fun _ =>
    steady_bind (steady_readElement _ _ _ _) fun _ =>
      steady_bind (steady_readElement _ _ _ _) fun _ => steady_pure _
  obtain ⟨⟨expected, next₂⟩, x₂, x₃, rfl, h₂, h⟩ := h.of_bind (steady_readElement _ _ _ _) fun _ =>
    steady_bind (steady_readElement _ _ _ _) fun _ => steady_pure _
  obtain ⟨⟨notes, next₃⟩, h₃, hvalue⟩ := h.of_map (steady_readElement _ _ _ _)
  obtain ⟨rfl, rfl⟩ := Prod.mk.inj hvalue
  obtain ⟨dashes₁, last₁, rfl, rfl, held₁⟩ := h₁.of_readElement
  obtain ⟨dashes₂, last₂, rfl, rfl, held₂⟩ := h₂.of_readElement
  obtain ⟨dashes₃, last₃, rfl, rfl, held₃⟩ := h₃.of_readElement
  refine ⟨dashes₁ ++ (last₁ :: dashes₂ ++ (last₂ :: dashes₃)), last₃, by simp, rfl,
    fun first hfirst => ?_⟩
  rw [← List.cons_append]
  exact .mk (held₁ first hfirst) (held₂ last₁ (trim_trim last₁).symm)
    (held₃ last₂ (trim_trim last₂).symm)

lemma steady_triadsAfter (case : Text) (count : ℕ) (next : Text) :
    Steady (triadsAfter case count next) := by
  unfold triadsAfter
  split
  · exact steady_pure _
  · exact steady_stepTriads case (count + 1) next

/-- The steps from number `count` on, whose first line is already taken. -/
lemma Takes.of_stepTriads {count : ℕ} {line case : Text} {x : List Text} {ts : List Triad}
    (h : Takes (stepTriads case count line) x ts) :
    ∃ y blank, x = y ++ [blank] ∧ IsBlankLine blank ∧
      ∀ first, Text.trim first = Text.trim line → HoldsTriads count (first :: y) ts := by
  induction hlength : x.length using Nat.strongRecOn generalizing count line x ts with
  | ind length ih =>
    rw [stepTriads_eq] at h
    have hafter (count : ℕ) (t : Triad) (next : Text) :
        Steady (do let ts ← triadsAfter case count next; pure (t :: ts)) :=
      steady_bind (steady_triadsAfter case count next) fun _ => steady_pure _
    obtain ⟨⟨t, next⟩, x₁, x₂, rfl, htriad, h⟩ := h.of_bind (steady_readTriad case count line)
      fun _ => steady_bind (steady_noteAll _) fun _ => hafter _ _ _
    obtain ⟨others, hothers, rfl⟩ :=
      (h.of_noteAll (hafter _ _ _)).of_map (steady_triadsAfter case count next)
    obtain ⟨y, last, rfl, rfl, held⟩ := htriad.of_readTriad
    unfold triadsAfter at hothers
    split_ifs at hothers with hblank
    · obtain ⟨rfl, rfl⟩ := hothers.of_pure
      refine ⟨y, last, by simp, hblank, fun first hfirst => ?_⟩
      have hlast := HoldsTriads.cons (held first hfirst) (.nil (count + 1))
      rwa [List.append_nil] at hlast
    · have hlt : x₂.length < length := by
        rw [← hlength, List.length_append, List.length_append, List.length_singleton]
        omega
      obtain ⟨z, blank, rfl, hend, held'⟩ := ih _ hlt hothers rfl
      refine ⟨y ++ (last :: z), blank, by simp, hend, fun first hfirst => ?_⟩
      exact .cons (held first hfirst) (held' last (trim_trim last).symm)

lemma Takes.of_readSteps {case : Text} {x : List Text} {ts : List Triad}
    (h : Takes (Steps.read case) x ts) : HoldsSteps x ts := by
  obtain ⟨_, x₁, x', rfl, hheader, h⟩ := h.of_bind (steady_expectHeader _ _ _) fun _ =>
    steady_bind steady_nextTrimmed fun line => steady_stepTriads case 1 line
  obtain ⟨line, x₂, x₃, rfl, hline, hsteps⟩ :=
    h.of_bind steady_nextTrimmed fun line => steady_stepTriads case 1 line
  obtain ⟨header, rfl, hlabel⟩ := hheader.of_expectHeader
  obtain ⟨first, rfl, rfl⟩ := hline.of_nextTrimmed
  obtain ⟨y, blank, rfl, hblank, held⟩ := hsteps.of_stepTriads
  exact .mk hlabel (held first (trim_trim first).symm) hblank

/-! ## What is read is what the lines hold -/

/-- The contents of a body that was read. -/
def bodyContents (body : CaseBody) : Contents where
  description := body.description.map Content.ofItem
  prerequisites := body.prerequisites.map Content.ofItem
  testData := body.testData.map Content.ofItem
  steps := body.steps

/-- The lines that a body takes hold the contents of the body. -/
theorem Takes.of_body {a : Assembler} {header : Text} {x : List Text} {body : CaseBody}
    (h : Takes (bodyBelow a header) x body) :
    HoldsContents a.dialect header x (bodyContents body) := by
  obtain ⟨m, hm⟩ := h 0 []
  obtain ⟨x₀, x₁, x₂, x₃, x₄, projects, rfl, hopening, hdescription, hprerequisites, htestData,
    hsteps, hprojects⟩ := exists_parts hm
  exact .mk hopening hdescription.of_readSection hprerequisites.of_readSection
    htestData.of_readSection hsteps.of_readSteps hprojects.of_readProjects

end TestCatalog.Proofs
