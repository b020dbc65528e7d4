import TestCatalog.Proofs.Runs

/-!
# Passages of a block

A passage is what one case is read from: its header, the lines below the header up to the projects
line, and the body that they hold. The passages of a block are determined by the block, and the
cases of a run are the cases of its passages.
-/

namespace TestCatalog.Proofs

/-- The lines that a case takes, below `above` lines of the block, and what they hold. -/
structure Passage where
  above : ℕ
  kind : CaseKind
  /-- The first line of the passage without the blanks at its ends. -/
  header : Text
  /-- The lines below the header, up to the projects line. -/
  lines : List Text
  body : CaseBody

namespace Passage

def case (a : Assembler) (p : Passage) : TestCase :=
  takenCase a p.kind p.header p.body

def taken (a : Assembler) (p : Passage) : Taken :=
  ⟨p.above, p.kind, p.case a, p.body.warning⟩

def parsed (a : Assembler) (p : Passage) : ParsedCases :=
  .single p.kind (p.case a) p.body.warning

end Passage

/-- The passages of the cases that are taken from the cursor to the end of the block. -/
inductive Passages (a : Assembler) : Cursor → List Passage → Prop where
  | done (n : ℕ) : Passages a ⟨n, []⟩ []
  | skip {n : ℕ} {line : Text} {rest : List Text} {ps : List Passage}
      (hkind : a.kindOfHeader? (Text.trim line) = none) (below : Passages a ⟨n + 1, rest⟩ ps) :
      Passages a ⟨n, line :: rest⟩ ps
  | take {n : ℕ} {line : Text} {x y : List Text} {kind : CaseKind} {body : CaseBody}
      {ps : List Passage} (hkind : a.kindOfHeader? (Text.trim line) = some kind)
      (hbody : Yields (bodyBelow a (Text.trim line)) ⟨n + 1, x ++ y⟩ body ⟨n + 1 + x.length, y⟩)
      (below : Passages a ⟨n + 1 + x.length, y⟩ ps) :
      Passages a ⟨n, line :: (x ++ y)⟩ (⟨n, kind, Text.trim line, x, body⟩ :: ps)

/-- The line is read inside a case: below its header, up to its projects line. -/
def InsideCase (a : Assembler) (block line : Text) : Prop :=
  ∃ ps, Passages a (Cursor.ofText block) ps ∧ ∃ p ∈ ps, line ∈ p.lines

variable {a : Assembler} {c : Cursor} {ps : List Passage}

/-! ## Passages and runs -/

lemma Passages.run (h : Passages a c ps) : Run a c (ps.map (Passage.taken a)) := by
  induction h with
  | done n => exact .done n
  | skip hkind below ih => exact .skip hkind ih
  | take hkind hbody below ih => exact .take hkind hbody ih

lemma Run.passages {run : List Taken} (h : Run a c run) :
    ∃ ps, Passages a c ps ∧ run = ps.map (Passage.taken a) := by
  induction h with
  | done n => exact ⟨[], .done n, rfl⟩
  | skip hkind below ih =>
    obtain ⟨ps, hps, rfl⟩ := ih
    exact ⟨ps, .skip hkind hps, rfl⟩
  | @take n line rest kind body c run hkind hbody below ih =>
    obtain ⟨ps, hps, rfl⟩ := ih
    obtain ⟨x, y, rfl, rfl⟩ := hbody.exists_lines (steady_readBody _ _ _ _).forward
    exact ⟨_, .take hkind hbody hps, rfl⟩

/-- Assembling succeeds exactly when the block has passages, and yields their cases. -/
theorem assemble_eq_ok_iff_passages {block : Text} {cases : ParsedCases} :
    (a.assemble block).value = .ok cases ↔
      ∃ ps, Passages a (Cursor.ofText block) ps ∧ cases = .concat (ps.map (Passage.parsed a)) := by
  have hparsed (ps : List Passage) :
      (ps.map (Passage.taken a)).map Taken.parsed = ps.map (Passage.parsed a) := by
    rw [List.map_map]
    rfl
  rw [assemble_eq_ok_iff]
  constructor
  · rintro ⟨run, hrun, rfl⟩
    obtain ⟨ps, hps, rfl⟩ := hrun.passages
    exact ⟨ps, hps, by rw [hparsed]⟩
  · rintro ⟨ps, hps, rfl⟩
    exact ⟨_, hps.run, by rw [hparsed]⟩

/-- The passages of a block are determined by the block. -/
theorem Passages.unique {ps' : List Passage} (h : Passages a c ps) (h' : Passages a c ps') :
    ps = ps' := by
  induction h generalizing ps' with
  | done n =>
    cases h'
    rfl
  | skip hkind below ih =>
    cases h' with
    | skip hkind' below' => exact ih below'
    | take hkind' hbody' below' =>
      rw [hkind] at hkind'
      cases hkind'
  | @take n line x y kind body ps hkind hbody below ih =>
    generalize hlines : x ++ y = lines at h'
    cases h' with
    | skip hkind' below' =>
      rw [hkind] at hkind'
      cases hkind'
    | @take _ _ x' y' kind' body' ps' hkind' hbody' below' =>
      rw [hlines] at hbody
      obtain rfl : kind = kind' := Option.some.inj (hkind.symm.trans hkind')
      obtain rfl : body = body' := Except.ok.inj (hbody.1.symm.trans hbody'.1)
      obtain rfl : y = y' := congrArg Cursor.rest (hbody.2.symm.trans hbody'.2)
      obtain rfl := List.append_cancel_right hlines
      rw [ih below']

/-! ## Cases of passages -/

lemma concat_parsed (ps : List Passage) : ParsedCases.concat (ps.map (Passage.parsed a)) =
    ⟨(ps.filter (·.kind = .add)).map (Passage.case a),
      (ps.filter (·.kind = .update)).map (Passage.case a),
      ps.flatMap fun p => p.body.warning.toList⟩ := by
  induction ps with
  | nil => rfl
  | cons p ps ih =>
    have hcons : ParsedCases.concat ((p :: ps).map (Passage.parsed a)) =
        p.parsed a ++ ParsedCases.concat (ps.map (Passage.parsed a)) := rfl
    obtain ⟨above, kind, header, lines, body⟩ := p
    rw [hcons, ih]
    cases kind <;> rfl

/-- The cases of a block are the cases of its passages. -/
theorem mem_cases_iff {ps : List Passage} {case : TestCase} :
    case ∈ (ParsedCases.concat (ps.map (Passage.parsed a))).added ++
        (ParsedCases.concat (ps.map (Passage.parsed a))).updated ↔
      ∃ p ∈ ps, p.case a = case := by
  simp only [concat_parsed, List.mem_append, List.mem_map, List.mem_filter, decide_eq_true_eq]
  constructor
  · rintro (⟨p, ⟨hp, -⟩, hcase⟩ | ⟨p, ⟨hp, -⟩, hcase⟩) <;> exact ⟨p, hp, hcase⟩
  · rintro ⟨p, hp, hcase⟩
    cases hkind : p.kind with
    | add => exact .inl ⟨p, ⟨hp, hkind⟩, hcase⟩
    | update => exact .inr ⟨p, ⟨hp, hkind⟩, hcase⟩

/-! ## Lines of passages -/

lemma Passages.mem_lines (h : Passages a c ps) {p : Passage} (hp : p ∈ ps) {line : Text}
    (hline : line ∈ p.lines) : line ∈ c.rest := by
  induction h with
  | done n => exact absurd hp List.not_mem_nil
  | skip hkind below ih => exact List.mem_cons_of_mem _ (ih hp)
  | take hkind hbody below ih =>
    rcases List.mem_cons.mp hp with rfl | hp
    · exact List.mem_cons_of_mem _ (List.mem_append_left _ hline)
    · exact List.mem_cons_of_mem _ (List.mem_append_right _ (ih hp))

/-- What was read at a passage: a header of its kind, and below it a body, wherever the passage
stands. -/
lemma Passages.spec (h : Passages a c ps) {p : Passage} (hp : p ∈ ps) :
    a.kindOfHeader? p.header = some p.kind ∧ Takes (bodyBelow a p.header) p.lines p.body := by
  induction h with
  | done n => exact absurd hp List.not_mem_nil
  | skip hkind below ih => exact ih hp
  | take hkind hbody below ih =>
    rcases List.mem_cons.mp hp with rfl | hp
    · exact ⟨hkind, takes_of_yields_body hbody⟩
    · exact ih hp

/-- Lines that are no headers are passed over. -/
lemma Passages.skip_lines {n : ℕ} {x y : List Text}
    (hx : ∀ line ∈ x, a.kindOfHeader? (Text.trim line) = none)
    (below : Passages a ⟨n + x.length, y⟩ ps) : Passages a ⟨n, x ++ y⟩ ps := by
  induction x generalizing n with
  | nil => exact below
  | cons line x ih =>
    obtain ⟨hline, hx⟩ := List.forall_mem_cons.mp hx
    refine .skip hline (ih hx ?_)
    rwa [Nat.add_assoc, Nat.add_comm 1]

end TestCatalog.Proofs
