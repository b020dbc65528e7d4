import Mathlib.Data.List.Basic
import TestCatalog.Proofs.Acceptance
import TestCatalog.Proofs.ContentReading
import TestCatalog.Proofs.Passages

/-!
# Nothing but layout is lost

What the catalogue shows of the contents of a case can be read back in one way only. So two cases
that look alike are read from documents with the same contents.
-/

namespace TestCatalog.Proofs

/-! ## Markup is read in one way only -/

lemma notMem_escapeMarkup_tag (t : Text) : '<' ∉ escapeMarkup t :=
  fun hmem => (escaped_escapeMarkup t).plain '<' hmem (by decide)

lemma prefixCode_cell : PrefixCode (fun x cell => x = Skeleton.cell cell ∧ '<' ∉ cell)
    (fun _ => True) (Skeleton.rowEnd <+: ·) where
  unique := by
    rintro x x' u u' cell cell' ⟨rfl, hcell⟩ ⟨rfl, hcell'⟩ - - heq
    have hhead (u : Text) : ∀ c ∈ (Skeleton.cellEnd ++ u).head?, c = '<' :=
      fun c hc => (Option.some.inj hc).symm
    simp only [Skeleton.cell, List.append_assoc, List.append_cancel_left_eq] at heq
    obtain ⟨rfl, hend⟩ := append_inj_of_head? (p := (· = '<'))
      (fun c hc => fun h => hcell (h ▸ hc)) (fun c hc => fun h => hcell' (h ▸ hc))
      (hhead u) (hhead u') heq
    exact ⟨rfl, List.append_cancel_left hend⟩
  after := fun _ _ => trivial
  after_stop := fun _ => trivial
  stop := by
    rintro x u cell ⟨rfl, -⟩ - h
    rw [Skeleton.cell, List.append_assoc, List.append_assoc] at h
    exact not_prefix_append (by decide) _ h

lemma prefixCode_row : PrefixCode
    (fun x cells => x = Skeleton.row cells ∧ ∀ cell ∈ cells, '<' ∉ cell)
    (fun _ => True) (Table.closeMarkup <+: ·) where
  unique := by
    rintro x x' u u' cells cells' ⟨rfl, hcells⟩ ⟨rfl, hcells'⟩ - - heq
    simp only [Skeleton.row, List.append_assoc, List.append_cancel_left_eq] at heq
    obtain ⟨rfl, hend⟩ := prefixCode_cell.unique_list
      (coded_flatMap fun cell hcell => ⟨rfl, hcells cell hcell⟩)
      (coded_flatMap fun cell hcell => ⟨rfl, hcells' cell hcell⟩)
      (List.prefix_append _ u) (List.prefix_append _ u') heq
    exact ⟨rfl, List.append_cancel_left hend⟩
  after := fun _ _ => trivial
  after_stop := fun _ => trivial
  stop := by
    rintro x u cells ⟨rfl, -⟩ - h
    rw [Skeleton.row, List.append_assoc, List.append_assoc] at h
    exact not_prefix_append (by decide) _ h

lemma table_append_inj {rows rows' : List (List Text)} {u u' : Text}
    (h : ∀ cells ∈ rows, ∀ cell ∈ cells, '<' ∉ cell)
    (h' : ∀ cells ∈ rows', ∀ cell ∈ cells, '<' ∉ cell)
    (heq : Skeleton.table rows ++ u = Skeleton.table rows' ++ u') : rows = rows' ∧ u = u' := by
  simp only [Skeleton.table, List.append_assoc, List.append_cancel_left_eq] at heq
  obtain ⟨rfl, hend⟩ := prefixCode_row.unique_list
    (coded_flatMap fun cells hcells => ⟨rfl, h cells hcells⟩)
    (coded_flatMap fun cells hcells => ⟨rfl, h' cells hcells⟩)
    (List.prefix_append _ u) (List.prefix_append _ u') heq
  exact ⟨rfl, List.append_cancel_left hend⟩

/-! ## Sections are read in one way only -/

/-- A line of its own that is not empty, or a table. -/
def Content.OnLines : Content → Prop
  | .line text => text ≠ [] ∧ '\n' ∉ text
  | .table _ => True

/-- What follows a content is the line feed of the next one, if anything. -/
def AtFeed (u : Text) : Prop :=
  ∀ c ∈ u.head?, c = '\n'

lemma exists_separator (s : Section) : s.separator = "\n" ∨ s.separator = "\n\n" := by
  cases s <;> simp [Section.separator, Section.isFreeForm]

lemma atFeed_markup (s : Section) (content : Content) (u : Text) :
    AtFeed (content.markup s ++ u) := by
  cases content with
  | line text =>
    rcases exists_separator s with hsep | hsep <;>
      · rw [Content.markup, hsep]
        exact fun c hc => (Option.some.inj hc).symm
  | table rows => exact fun c hc => (Option.some.inj hc).symm

/-- A line does not read as a table. -/
lemma line_ne_table {s : Section} {text : Text} {rows : List (List Text)} {u u' : Text}
    (h : (Content.line text).OnLines) :
    (Content.line text).markup s ++ u ≠ (Content.table rows).markup s ++ u' := by
  obtain ⟨hne, hfeed⟩ := h
  intro heq
  obtain ⟨c, rest, hescape⟩ : ∃ c rest, escapeMarkup text = c :: rest := by
    refine List.exists_cons_of_ne_nil fun hnil => hne (escapeMarkup_injective ?_)
    rw [hnil]
    rfl
  have htag : c ≠ '<' := by
    rintro rfl
    exact notMem_escapeMarkup_tag text (hescape ▸ List.mem_cons_self)
  have hchar : c ≠ '\n' := by
    rintro rfl
    exact notMem_escapeMarkup (by decide) hfeed (hescape ▸ List.mem_cons_self)
  rw [Content.markup, Content.markup, hescape] at heq
  rcases exists_separator s with hsep | hsep
  · rw [hsep] at heq
    exact hchar (List.cons.inj (List.cons.inj heq).2).1
  · rw [hsep] at heq
    exact htag (List.cons.inj (List.cons.inj (List.cons.inj heq).2).2).1

lemma prefixCode_markup (s : Section) : PrefixCode
    (fun x content => x = Content.markup s content ∧ content.OnLines) AtFeed (· = []) where
  unique := by
    rintro x x' u u' content content' ⟨rfl, hcontent⟩ ⟨rfl, hcontent'⟩ hu hu' heq
    cases content with
    | line text =>
      cases content' with
      | line text' =>
        have hplain {text : Text} (h : (Content.line text).OnLines) :
            ∀ c ∈ escapeMarkup text, c ≠ '\n' := by
          rintro c hc rfl
          exact notMem_escapeMarkup (by decide) h.2 hc
        simp only [Content.markup, List.append_assoc, List.append_cancel_left_eq] at heq
        obtain ⟨htext, rfl⟩ := append_inj_of_head? (hplain hcontent) (hplain hcontent') hu hu' heq
        exact ⟨congrArg Content.line (escapeMarkup_injective htext), rfl⟩
      | table rows => exact absurd heq (line_ne_table hcontent)
    | table rows =>
      cases content' with
      | line text => exact absurd heq.symm (line_ne_table hcontent')
      | table rows' =>
        have hplain (rows : List (List Text)) : ∀ cells ∈ rows.map (·.map escapeMarkup),
            ∀ cell ∈ cells, '<' ∉ cell := by
          intro cells hcells cell hcell
          obtain ⟨row, -, rfl⟩ := List.mem_map.mp hcells
          obtain ⟨text, -, rfl⟩ := List.mem_map.mp hcell
          exact notMem_escapeMarkup_tag text
        have hinj : Function.Injective (List.map (List.map escapeMarkup)) :=
          List.map_injective_iff.mpr (List.map_injective_iff.mpr escapeMarkup_injective)
        simp only [Content.markup, List.append_assoc, List.append_cancel_left_eq] at heq
        obtain ⟨hrows, rfl⟩ := table_append_inj (hplain rows) (hplain rows') heq
        exact ⟨congrArg Content.table (hinj hrows), rfl⟩
  after := by
    rintro x u content ⟨rfl, -⟩ -
    exact atFeed_markup s content u
  after_stop := by
    rintro u rfl c hc
    cases hc
  stop := by
    rintro x u content ⟨rfl, -⟩ - h
    obtain ⟨hnil, -⟩ := List.append_eq_nil_iff.mp h
    cases content with
    | line text =>
      rcases exists_separator s with hsep | hsep <;>
        · rw [Content.markup, hsep] at hnil
          cases hnil
    | table rows => cases hnil

/-- No two lists of contents look alike in the catalogue. -/
theorem flatMap_markup_inj {s : Section} {contents contents' : List Content}
    (h : ∀ content ∈ contents, content.OnLines) (h' : ∀ content ∈ contents', content.OnLines)
    (heq : contents.flatMap (Content.markup s) = contents'.flatMap (Content.markup s)) :
    contents = contents' :=
  ((prefixCode_markup s).unique_list (coded_flatMap fun content hmem => ⟨rfl, h content hmem⟩)
    (coded_flatMap fun content hmem => ⟨rfl, h' content hmem⟩) rfl rfl
    (congrArg (· ++ []) heq)).1

/-! ## Steps are read in one way only -/

/-- Lines without line feeds, at least one. -/
def AreLines (lines : List Text) : Prop :=
  lines ≠ [] ∧ ∀ line ∈ lines, '\n' ∉ line

lemma render_inj {lines lines' : List Text} (h : AreLines lines) (h' : AreLines lines')
    (heq : Steps.render lines = Steps.render lines') : lines = lines' := by
  have hjoin := congrArg pieces (escapeMarkup_injective heq)
  rwa [pieces_join h.1 h.2, pieces_join h'.1 h'.2] at hjoin

/-- The elements of a step. -/
def elements (t : Triad) : List (List Text) :=
  [t.action, t.expected, t.notes]

lemma map_step_inj {ts ts' : List Triad} (h : ∀ t ∈ ts, ∀ lines ∈ elements t, AreLines lines)
    (h' : ∀ t ∈ ts', ∀ lines ∈ elements t, AreLines lines)
    (heq : ts.map CaseBody.step = ts'.map CaseBody.step) : ts = ts' := by
  induction ts generalizing ts' with
  | nil => exact (List.map_eq_nil_iff.mp heq.symm).symm
  | cons t ts ih =>
    cases ts' with
    | nil => cases heq
    | cons t' ts' =>
      obtain ⟨ht, hts⟩ := List.forall_mem_cons.mp h
      obtain ⟨ht', hts'⟩ := List.forall_mem_cons.mp h'
      obtain ⟨hstep, hsteps⟩ := List.cons.inj heq
      obtain ⟨action, expected, notes⟩ := t
      obtain ⟨action', expected', notes'⟩ := t'
      simp only [CaseBody.step, Step.mk.injEq] at hstep
      obtain ⟨haction, hexpected, hnotes⟩ := hstep
      simp only [elements, List.forall_mem_cons] at ht ht'
      rw [render_inj ht.1 ht'.1 haction, render_inj ht.2.1 ht'.2.1 hexpected,
        render_inj ht.2.2.1 ht'.2.2.1 hnotes, ih hts hts' hsteps]

/-! ## Contents on lines -/

/-- The contents stand on lines, none of which has a line feed. -/
structure Contents.OnLines (contents : Contents) : Prop where
  description : ∀ content ∈ contents.description, content.OnLines
  prerequisites : ∀ content ∈ contents.prerequisites, content.OnLines
  testData : ∀ content ∈ contents.testData, content.OnLines
  steps : ∀ t ∈ contents.steps, ∀ lines ∈ elements t, AreLines lines

/-- The section has no line feed but those between its lines. -/
lemma HoldsSection.onLines {s : Section} {x : List Text} {contents : List Content}
    (h : HoldsSection s x contents) (hx : ∀ line ∈ x, '\n' ∉ line) :
    ∀ content ∈ contents, content.OnLines := by
  obtain ⟨-, held, -⟩ := h
  refine held.forall_mem (fun line hline => hx line ?_) fun y content hcontent hy => ?_
  · exact List.mem_cons_of_mem _ (List.mem_append_left _ hline)
  · cases hcontent with
    | line hblank hopener =>
      exact ⟨hblank, fun hmem => hy _ List.mem_cons_self (mem_of_mem_trim hmem)⟩
    | table hfirst hrows hlast => trivial

lemma HoldsElement.areLines {mark : Text} {x lines : List Text} (h : HoldsElement mark x lines)
    (hx : ∀ line ∈ x, '\n' ∉ line) : AreLines lines := by
  obtain @⟨first, text, dashes, hfirst, hdashes⟩ := h
  obtain ⟨hline, hx⟩ := List.forall_mem_cons.mp hx
  refine ⟨List.cons_ne_nil _ _,
    List.forall_mem_cons.mpr ⟨fun hmem => hline ?_, fun line hmem => ?_⟩⟩
  · refine mem_of_mem_trim ?_
    rw [hfirst]
    exact List.mem_append_right _ (mem_of_mem_trim hmem)
  · obtain ⟨dash, hdash, rfl⟩ := List.mem_map.mp hmem
    exact fun hfeed => hx dash hdash (mem_of_mem_trim hfeed)

lemma HoldsTriads.areLines {count : ℕ} {x : List Text} {ts : List Triad}
    (h : HoldsTriads count x ts) (hx : ∀ line ∈ x, '\n' ∉ line) :
    ∀ t ∈ ts, ∀ lines ∈ elements t, AreLines lines := by
  induction h with
  | nil count => simp
  | cons head tail ih =>
    obtain ⟨haction, hexpected, hnotes⟩ := head
    simp only [List.forall_mem_append] at hx
    obtain ⟨⟨hx₁, hx₂, hx₃⟩, hy⟩ := hx
    refine List.forall_mem_cons.mpr ⟨?_, ih hy⟩
    simp only [elements, List.forall_mem_cons]
    exact ⟨haction.areLines hx₁, hexpected.areLines hx₂, hnotes.areLines hx₃, by simp⟩

lemma HoldsContents.onLines {d : Dialect} {header : Text} {x : List Text} {contents : Contents}
    (h : HoldsContents d header x contents) (hx : ∀ line ∈ x, '\n' ∉ line) : contents.OnLines := by
  obtain ⟨-, hdescription, hprerequisites, htestData, ⟨-, held, -⟩, -⟩ := h
  simp only [List.forall_mem_append] at hx
  obtain ⟨-, hx₁, hx₂, hx₃, hx₄, -⟩ := hx
  exact ⟨hdescription.onLines hx₁, hprerequisites.onLines hx₂, htestData.onLines hx₃,
    held.areLines fun line hline => hx₄.1 line (List.mem_cons_of_mem _ hline)⟩

/-! ## Cases -/

/-- The catalogue shows the same of both cases, apart from their names and their projects. -/
structure LooksLike (case case' : TestCase) : Prop where
  description : case.description = case'.description
  prerequisites : case.prerequisites = case'.prerequisites
  testData : case.testData = case'.testData
  steps : case.steps = case'.steps

/-- The case is read from the passage of the block. -/
def ReadFrom (a : Assembler) (block : Text) (p : Passage) (case : TestCase) : Prop :=
  ∃ ps, Passages a (Cursor.ofText block) ps ∧ p ∈ ps ∧ p.case a = case

/-- Wherever the case is read from, the lines there hold these contents and no others. -/
def WrittenAs (a : Assembler) (block : Text) (case : TestCase) (contents : Contents) : Prop :=
  (∃ p, ReadFrom a block p case) ∧ ∀ p, ReadFrom a block p case → ∀ others,
    HoldsContents a.dialect p.header p.lines others ↔ others = contents

variable {a a' : Assembler} {block block' : Text}

/-- A passage holds the contents of its body, on lines without line feeds. -/
lemma ReadFrom.contents {p : Passage} {case : TestCase} (h : ReadFrom a block p case) :
    HoldsContents a.dialect p.header p.lines (bodyContents p.body) ∧
      (bodyContents p.body).OnLines := by
  obtain ⟨ps, hps, hp, -⟩ := h
  have held := (hps.spec hp).2.of_body
  exact ⟨held, held.onLines fun line hline => notMem_blockLines (hps.mem_lines hp hline)⟩

lemma render_section_inj {s : Section} {items items' : List Item}
    (h : ∀ content ∈ items.map Content.ofItem, content.OnLines)
    (h' : ∀ content ∈ items'.map Content.ofItem, content.OnLines)
    (heq : s.render items = s.render items') :
    items.map Content.ofItem = items'.map Content.ofItem := by
  rw [render_eq, render_eq] at heq
  exact flatMap_markup_inj h h' heq

/-- Cases that look alike have the same contents. -/
lemma bodyContents_inj {p p' : Passage} {case case' : TestCase} (h : ReadFrom a block p case)
    (h' : ReadFrom a' block' p' case') (halike : LooksLike case case') :
    bodyContents p.body = bodyContents p'.body := by
  have hlines := h.contents.2
  have hlines' := h'.contents.2
  obtain ⟨-, -, -, rfl⟩ := h
  obtain ⟨-, -, -, rfl⟩ := h'
  have hsteps : p.body.steps = p'.body.steps :=
    map_step_inj hlines.steps hlines'.steps halike.steps
  rw [bodyContents, bodyContents, hsteps,
    render_section_inj hlines.description hlines'.description halike.description,
    render_section_inj hlines.prerequisites hlines'.prerequisites halike.prerequisites,
    render_section_inj hlines.testData hlines'.testData halike.testData]

lemma exists_readFrom {cases : ParsedCases} {case : TestCase}
    (h : (a.assemble block).value = .ok cases) (hcase : case ∈ cases.added ++ cases.updated) :
    ∃ p, ReadFrom a block p case := by
  obtain ⟨ps, hps, rfl⟩ := assemble_eq_ok_iff_passages.mp h
  obtain ⟨p, hp, rfl⟩ := mem_cases_iff.mp hcase
  exact ⟨p, ps, hps, hp, rfl⟩

lemma ReadFrom.writtenAs {p : Passage} {case : TestCase} {contents : Contents}
    (h : ReadFrom a block p case)
    (hall : ∀ q, ReadFrom a block q case → bodyContents q.body = contents) :
    WrittenAs a block case contents := by
  refine ⟨⟨p, h⟩, fun q hq others => ⟨fun held => ?_, ?_⟩⟩
  · exact (held.unique hq.contents.1).trans (hall q hq)
  · rintro rfl
    exact hall q hq ▸ hq.contents.1

/-- Cases of assembled blocks that look alike are written as the same contents: the same lines and
tables in each section, and the same lines in each element of the steps. -/
theorem assemble_lossless {cases cases' : ParsedCases} {case case' : TestCase}
    (h : (a.assemble block).value = .ok cases) (h' : (a'.assemble block').value = .ok cases')
    (hcase : case ∈ cases.added ++ cases.updated)
    (hcase' : case' ∈ cases'.added ++ cases'.updated) (halike : LooksLike case case') :
    ∃ contents, WrittenAs a block case contents ∧ WrittenAs a' block' case' contents := by
  obtain ⟨p, hp⟩ := exists_readFrom h hcase
  obtain ⟨p', hp'⟩ := exists_readFrom h' hcase'
  refine ⟨bodyContents p.body, hp.writtenAs fun q hq => ?_, hp'.writtenAs fun q hq => ?_⟩
  · exact bodyContents_inj hq hp ⟨rfl, rfl, rfl, rfl⟩
  · exact (bodyContents_inj hp hq halike).symm

/-- The sample draft under another name, with other blanks. -/
def spacedDraft : Draft :=
  { checkoutDraft with
    name := "test_NEW_spaced"
    description := [.line "Checks out a cart  ", .line "  Steps: see below"]
    testData := [.table ["item|qty", "apple |  2"]] }

lemma laidOut_spaced : spacedDraft.LaidOut .annotatedFunction :=
  { checkoutDraft_wellFormed.toLaidOut with
    name := ⟨by decide, by decide⟩
    description := by decide
    testData := by decide
    oneLine := by decide }

lemma looksLike_spaced : LooksLike (checkoutDraft.trimmed.case cartAssembler)
    (spacedDraft.trimmed.case cartAssembler) where
  description := congrArg Section.description.render (by decide)
  prerequisites := congrArg Section.prerequisites.render (by decide)
  testData := by
    have hcells : checkoutDraft.trimmed.testData.map Content.ofItem =
        spacedDraft.trimmed.testData.map Content.ofItem := by decide
    show Section.testData.render _ = Section.testData.render _
    rw [render_eq, render_eq, hcells]
  steps := congrArg (List.map CaseBody.step) (by decide)

theorem assemble_lossless_spaced :
    LooksLike (checkoutDraft.trimmed.case cartAssembler) (spacedDraft.trimmed.case cartAssembler) ∧
      ∃ contents,
        WrittenAs cartAssembler checkoutBlock (checkoutDraft.trimmed.case cartAssembler) contents ∧
        WrittenAs cartAssembler (draftBlock .annotatedFunction [spacedDraft])
          (spacedDraft.trimmed.case cartAssembler) contents := by
  have h : (cartAssembler.assemble (draftBlock .annotatedFunction [spacedDraft])).value =
      .ok (.concat [spacedDraft.trimmed.parsed cartAssembler]) :=
    assemble_single accepts_validation laidOut_spaced rfl
  refine ⟨looksLike_spaced, ?_⟩
  exact assemble_lossless assemble_checkoutBlock h (List.mem_append_left _ List.mem_cons_self)
    (List.mem_append_left _ List.mem_cons_self) looksLike_spaced

end TestCatalog.Proofs
