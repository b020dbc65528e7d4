import Mathlib.Algebra.Ring.Nat
import TestCatalog.Proofs.Acceptance
import TestCatalog.Proofs.ContentReading
import TestCatalog.Proofs.Passages

/-!
# Lines of cases

A case stands on lines of its own, from its header to its projects line, and each of its parts takes
lines: no part is read from behind the end of the block. So the lines of a block bound the number of
its cases and of their steps, and no reader counts a line that is not there.
-/

namespace TestCatalog.Proofs

/-! ## Lines that the parts take -/

lemma opening_ne_nil {d : Dialect} {header case : Text} {x : List Text}
    (h : Takes (d.expectOpening header case) x ()) : x ≠ [] := by
  rintro rfl
  obtain ⟨m, hm⟩ := h 0 []
  cases d with
  | annotatedFunction =>
    obtain ⟨_, c, hsignature, hm⟩ := yields_bind_iff.mp hm
    obtain rfl : ⟨0, []⟩ = c := hsignature.2
    exact nomatch hm.1
  | keywordTable => exact nomatch hm.1
  | featureScenario => exact nomatch hm.1

lemma HoldsElement.length_pos {mark : Text} {x lines : List Text} (h : HoldsElement mark x lines) :
    1 ≤ x.length := by
  cases h with
  | mk hfirst hdashes =>
    rw [List.length_cons]
    omega

lemma HoldsTriad.length_le {count : ℕ} {x : List Text} {t : Triad} (h : HoldsTriad count x t) :
    3 ≤ x.length := by
  cases h with
  | mk haction hexpected hnotes =>
    have hx := haction.length_pos
    have hy := hexpected.length_pos
    have hz := hnotes.length_pos
    rw [List.length_append, List.length_append]
    omega

lemma HoldsTriads.length_le {count : ℕ} {x : List Text} {ts : List Triad}
    (h : HoldsTriads count x ts) : 3 * ts.length ≤ x.length := by
  induction h with
  | nil count => exact Nat.le_refl 0
  | cons head tail ih =>
    have hhead := head.length_le
    rw [List.length_append, List.length_cons]
    omega

/-- A part takes its header and a blank line beside what it holds. -/
lemma HoldsPart.length_eq {β : Type} {label : Text} {R : List Text → β → Prop} {x : List Text}
    {b : β} (h : HoldsPart label R x b) : ∃ y, R y b ∧ x.length = y.length + 2 := by
  cases h with
  | @mk header blank y b hheader held hblank =>
    refine ⟨y, held, ?_⟩
    rw [List.length_append, List.length_cons, List.length_singleton]

/-- The lines below a header: one for the opening, two for each of the sections, two and three for
each of the steps, and the projects line. -/
lemma HoldsContents.length_le {d : Dialect} {header : Text} {x : List Text} {contents : Contents}
    (h : HoldsContents d header x contents) : 10 + 3 * contents.steps.length ≤ x.length := by
  cases h with
  | mk hopening hdescription hprerequisites htestData hsteps hprojects =>
    have hx₀ := List.length_pos_iff.mpr (opening_ne_nil hopening)
    obtain ⟨y₁, -, hx₁⟩ := hdescription.length_eq
    obtain ⟨y₂, -, hx₂⟩ := hprerequisites.length_eq
    obtain ⟨y₃, -, hx₃⟩ := htestData.length_eq
    obtain ⟨y₄, held, hx₄⟩ := hsteps.length_eq
    have hy₄ := held.length_le
    simp only [List.length_append, List.length_singleton]
    omega

lemma HoldsContents.exists_projects {d : Dialect} {header : Text} {x : List Text}
    {contents : Contents} (h : HoldsContents d header x contents) :
    ∃ y projects, x = y ++ [projects] ∧ Projects.mark <+: Text.trim projects := by
  cases h with
  | @mk x₀ x₁ x₂ x₃ x₄ projects _ _ _ _ hopening hdescription hprerequisites htestData hsteps
      hprojects =>
    exact ⟨x₀ ++ (x₁ ++ (x₂ ++ (x₃ ++ x₄))), projects, by simp, hprojects⟩

/-! ## Places of passages -/

/-- The number of lines above the last line of the passage. -/
def Passage.last (p : Passage) : ℕ :=
  p.above + p.lines.length

/-- The number of lines of the passage, from its header on. -/
def Passage.size (p : Passage) : ℕ :=
  p.lines.length + 1

/-- The lines that a case needs: eleven that every case has, and three for each of its steps. -/
def cost (case : TestCase) : ℕ :=
  11 + 3 * case.steps.length

/-- The passage is what the lines of the block from the header to the projects line say, and has
lines enough for its case. -/
structure Occupies (a : Assembler) (block : Text) (p : Passage) : Prop where
  header : ((blockLines block)[p.above]?).map Text.trim = some p.header
  kind : a.kindOfHeader? p.header = some p.kind
  lines : p.lines = ((blockLines block).drop (p.above + 1)).take p.lines.length
  body : Takes (bodyBelow a p.header) p.lines p.body
  projects : ∃ line, (blockLines block)[p.last]? = some line ∧ Projects.mark <+: Text.trim line
  cost_le : cost (p.case a) ≤ p.size

variable {a : Assembler} {block : Text} {c : Cursor} {ps : List Passage}

/-- A passage stands among the lines below the cursor. -/
lemma Passages.exists_lines (h : Passages a c ps) {p : Passage} (hp : p ∈ ps) :
    ∃ x line y, c.rest = x ++ line :: (p.lines ++ y) ∧ p.above = c.lineNumber + x.length ∧
      Text.trim line = p.header := by
  induction h with
  | done n => exact absurd hp List.not_mem_nil
  | @skip n line rest ps hkind below ih =>
    obtain ⟨x, header, y, hrest, habove, hheader⟩ := ih hp
    refine ⟨line :: x, header, y, congrArg (line :: ·) hrest, ?_, hheader⟩
    rw [habove, List.length_cons]
    dsimp only
    omega
  | @take n line x y kind body ps hkind hbody below ih =>
    rcases List.mem_cons.mp hp with rfl | hp
    · exact ⟨[], line, y, rfl, rfl, rfl⟩
    · obtain ⟨x', header, y', hrest, habove, hheader⟩ := ih hp
      have hy : y = x' ++ header :: (p.lines ++ y') := hrest
      refine ⟨line :: (x ++ x'), header, y', ?_, ?_, hheader⟩
      · rw [hy, List.cons_append, List.append_assoc]
      · rw [habove, List.length_cons, List.length_append]
        dsimp only
        omega

/-- Each passage begins below the last line of those above it. -/
lemma Passages.pairwise_last (h : Passages a c ps) : ps.Pairwise fun p q => p.last < q.above := by
  induction h with
  | done n => exact .nil
  | skip hkind below ih => exact ih
  | @take n line x y kind body ps hkind hbody below ih =>
    refine List.pairwise_cons.mpr ⟨fun q hq => ?_, ih⟩
    obtain ⟨x', -, -, -, habove, -⟩ := below.exists_lines hq
    rw [habove, Passage.last]
    dsimp only
    omega

lemma cost_le_size {p : Passage} (h : Takes (bodyBelow a p.header) p.lines p.body) :
    cost (p.case a) ≤ p.size := by
  have hsteps : (p.case a).steps.length = (bodyContents p.body).steps.length :=
    List.length_map _
  have hle := h.of_body.length_le
  rw [cost, Passage.size, hsteps]
  omega

/-- The cases of the passages cost no more lines than there are. -/
lemma Passages.sum_cost_le (h : Passages a c ps) :
    ((ps.map (Passage.case a)).map cost).sum ≤ c.rest.length := by
  induction h with
  | done n => exact Nat.le_refl 0
  | skip hkind below ih => exact Nat.le_succ_of_le ih
  | @take n line x y kind body ps hkind hbody below ih =>
    have hcost := cost_le_size (p := ⟨n, kind, Text.trim line, x, body⟩)
      (takes_of_yields_body hbody)
    rw [Passage.size] at hcost
    rw [List.map_cons, List.map_cons, List.sum_cons, List.length_cons, List.length_append]
    dsimp only at ih hcost ⊢
    omega

lemma Passages.occupies (h : Passages a (Cursor.ofText block) ps) {p : Passage} (hp : p ∈ ps) :
    Occupies a block p := by
  obtain ⟨hkind, hbody⟩ := h.spec hp
  obtain ⟨x, line, y, hrest, habove, hheader⟩ := h.exists_lines hp
  obtain ⟨z, projects, hlines, hprojects⟩ := hbody.of_body.exists_projects
  have hblock : blockLines block = x ++ line :: (p.lines ++ y) := hrest
  have habove : p.above = x.length := by
    rw [habove, ofText_eq, Nat.zero_add]
  refine ⟨?_, hkind, ?_, hbody, ⟨projects, ?_, hprojects⟩, cost_le_size hbody⟩
  · rw [hblock, habove, List.getElem?_append_right (Nat.le_refl _), Nat.sub_self]
    exact congrArg some hheader
  · rw [hblock, habove]
    simp
  · rw [hblock, Passage.last, habove, hlines]
    simp

/-- The new and the updated cases of a block are together those of its passages. -/
lemma perm_cases (ps : List Passage) :
    ((ParsedCases.concat (ps.map (Passage.parsed a))).added ++
      (ParsedCases.concat (ps.map (Passage.parsed a))).updated).Perm (ps.map (Passage.case a)) := by
  have hupdate : (fun p : Passage => decide (p.kind = .update)) =
      fun p => !decide (p.kind = .add) := by
    funext p
    cases p.kind <;> rfl
  rw [concat_parsed]
  dsimp only
  rw [← List.map_append, hupdate]
  exact (List.filter_append_perm _ ps).map _

/-! ## Cursors -/

/-- The assembler and the readers that it is made of. -/
inductive IsPart (a : Assembler) : {α : Type} → Reader α → Prop where
  | cases : IsPart a a.readCases
  | body (header name : Text) : IsPart a (CaseBody.read a.config a.dialect header name)
  | opening (header name : Text) : IsPart a (a.dialect.expectOpening header name)
  | signature (header name : Text) : IsPart a (Dialect.expectSignature header name)
  | quotes (name : Text) : IsPart a (Dialect.expectQuotes name)
  | mark (name : Text) : IsPart a (Dialect.expectMark name)
  | heading (label name : Text) (first : Bool) : IsPart a (Section.expectHeader label name first)
  | items (s : Section) (name : Text) (count : ℕ) : IsPart a (s.readItems name count)
  | sections (s : Section) (name : Text) : IsPart a (s.read name)
  | table (label name : Text) : IsPart a (Table.read label name)
  | element (e : StepElement) (count : ℕ) (line name : Text) :
      IsPart a (Steps.readElement e count line name)
  | triad (name : Text) (count : ℕ) (line : Text) : IsPart a (Steps.readTriad name count line)
  | triads (name : Text) (count : ℕ) (line : Text) : IsPart a (Steps.readTriads name count line)
  | steps (name : Text) : IsPart a (Steps.read name)
  | projects (name : Text) : IsPart a (Projects.read a.config a.dialect name)
  | line : IsPart a Reader.nextTrimmed

/-- The cursors that come up when the block is assembled: the one above its first line, and those
that a cursor is moved to by taking a line or by a reader. -/
inductive Stands (a : Assembler) (block : Text) : Cursor → Prop where
  | start : Stands a block (Cursor.ofText block)
  | next {c c' : Cursor} {line : Text} (h : Stands a block c) (hnext : c.next? = some (line, c')) :
      Stands a block c'
  | read {c : Cursor} {α : Type} {r : Reader α} (h : Stands a block c) (hr : IsPart a r) :
      Stands a block (r c).cursor

lemma forward_readCases (a : Assembler) : Reader.Forward a.readCases := by
  intro c
  -- taking the next line moves the cursor below it
  have hline {c : Cursor} {line : Text} {rest : List Text} (hc : c.rest = line :: rest) :
      c.Reaches ⟨c.lineNumber + 1, rest⟩ :=
    ⟨[line], hc, rfl⟩
  fun_induction Assembler.readCases a c with
  | case1 c hc => exact .refl c
  | case2 c line rest hc header below hkind ih => exact (hline hc).trans ih
  | case3 c line rest hc header below kind hkind name e c' journal hr =>
    have hbody := CaseBody.forward_read a.config a.dialect header name below
    rw [hr] at hbody
    exact (hline hc).trans hbody
  | case4 c line rest hc header below kind hkind name body c' journal hr hlt case others ih =>
    have hbody := CaseBody.forward_read a.config a.dialect header name below
    rw [hr] at hbody
    exact (hline hc).trans (hbody.trans ih)

lemma IsPart.forward {α : Type} {r : Reader α} (h : IsPart a r) : r.Forward := by
  cases h with
  | cases => exact forward_readCases a
  | body header name => exact CaseBody.forward_read _ _ header name
  | opening header name => exact a.dialect.forward_expectOpening header name
  | signature header name => exact fun c => Dialect.skipSignature_reaches 0 header _ _
  | quotes name => exact Dialect.forward_expectQuotes name
  | mark name => exact Dialect.forward_expectMark name
  | heading label name first => exact Section.forward_expectHeader label name first
  | items s name count => exact Section.forward_readItems s name count
  | sections s name => exact Section.forward_read s name
  | table label name => exact Table.forward_read label name
  | element e count line name => exact Steps.forward_readElement e count line name
  | triad name count line => exact Steps.forward_readTriad name count line
  | triads name count line => exact Steps.forward_readTriads name count line
  | steps name => exact Steps.forward_read name
  | projects name => exact Projects.forward_read _ _ name
  | line => exact Reader.forward_nextTrimmed

lemma Stands.reaches (h : Stands a block c) : (Cursor.ofText block).Reaches c := by
  induction h with
  | start => exact .refl _
  | @next c c' line _ hnext ih =>
    rcases c with ⟨n, _ | ⟨first, rest⟩⟩
    · cases hnext
    · cases hnext
      exact ih.trans (Cursor.reaches_succ n line rest)
  | @read c _ r _ hr ih => exact ih.trans (hr.forward c)

/-- A cursor is never beyond the last line. -/
lemma Stands.lineNumber_le (h : Stands a block c) : c.lineNumber ≤ (Text.lines block).length := by
  obtain ⟨taken, hrest, hnumber⟩ := h.reaches
  have hlength := congrArg List.length hrest
  rw [List.length_append, Cursor.ofText, List.length_map] at hlength
  rw [hnumber, Cursor.ofText]
  dsimp only
  omega

/-! ## The lines of a block -/

/-- The cases of a block that is assembled stand on lines of their own, one below the other, each
from its header to its projects line. Together they cost no more lines than the block has, and no
cursor is moved beyond these. -/
theorem assemble_line_budget {cases : ParsedCases} (h : (a.assemble block).value = .ok cases) :
    (∃ ps : List Passage, cases = .concat (ps.map (Passage.parsed a)) ∧
        (∀ p ∈ ps, Occupies a block p) ∧ ps.Pairwise fun p q => p.last < q.above) ∧
      ((cases.added ++ cases.updated).map cost).sum ≤ (Text.lines block).length ∧
      ∀ c, Stands a block c → c.lineNumber ≤ (Text.lines block).length := by
  obtain ⟨ps, hps, rfl⟩ := assemble_eq_ok_iff_passages.mp h
  refine ⟨⟨ps, rfl, fun p => hps.occupies, hps.pairwise_last⟩, ?_, fun c => Stands.lineNumber_le⟩
  have hcost := hps.sum_cost_le
  rw [Cursor.ofText, List.length_map] at hcost
  rwa [((perm_cases ps).map cost).sum_nat]

/-- The sample two times, one below the other. -/
def twoCheckouts : Text :=
  draftBlock .annotatedFunction [checkoutDraft, checkoutDraft]

def checkoutCases : ParsedCases :=
  checkoutDraft.trimmed.parsed cartAssembler

theorem assemble_line_budget_checkout :
    (cartAssembler.assemble twoCheckouts).value = .ok (.concat [checkoutCases, checkoutCases]) ∧
      (∃ ps : List Passage, ParsedCases.concat [checkoutCases, checkoutCases] =
          .concat (ps.map (Passage.parsed cartAssembler)) ∧
        (∀ p ∈ ps, Occupies cartAssembler twoCheckouts p) ∧
        ps.Pairwise fun p q => p.last < q.above) ∧
      34 ≤ (Text.lines twoCheckouts).length := by
  have hlaidOut : ∀ draft ∈ [checkoutDraft, checkoutDraft], draft.LaidOut .annotatedFunction := by
    simpa using checkoutDraft_wellFormed.toLaidOut
  have h : (cartAssembler.assemble twoCheckouts).value =
      .ok (.concat [checkoutCases, checkoutCases]) :=
    assemble_laidOut accepts_validation hlaidOut (by decide)
  obtain ⟨hps, hcost, -⟩ := assemble_line_budget h
  exact ⟨h, hps, hcost⟩

end TestCatalog.Proofs
