import TestCatalog.Proofs.Acceptance
import TestCatalog.Proofs.Passages

/-!
# Modes partition the cases

What a mode makes of a block is decided by the kinds of cases that it accepts. If no line inside a
case looks like a header, then a mode that passes over some cases takes the other ones as they are
taken from the whole block, so that the two modes for one kind part the cases between them.
-/

namespace TestCatalog.Proofs

variable {a : Assembler}

/-! ## Headers by mode -/

lemma kindOfHeader?_eq_none_iff {header : Text} : a.kindOfHeader? header = none ↔
    ∀ kind, a.mode.accepts kind → ¬ Text.startsWith (headMark a.dialect kind) header := by
  constructor
  · intro hnone kind haccepts hstart
    rw [kindOfHeader?_eq_some haccepts hstart] at hnone
    cases hnone
  · intro hmarks
    cases h : a.kindOfHeader? header with
    | none => rfl
    | some kind =>
      obtain ⟨haccepts, hstart⟩ := startsWith_of_kindOfHeader? h
      exact absurd hstart (hmarks kind haccepts)

lemma kindOfHeader?_eq_some_iff {header : Text} {kind : CaseKind} :
    a.kindOfHeader? header = some kind ↔
      a.mode.accepts kind ∧ Text.startsWith (headMark a.dialect kind) header :=
  ⟨startsWith_of_kindOfHeader?, fun h => kindOfHeader?_eq_some h.1 h.2⟩

/-- Modes that accept the same kinds read a block in the same way. -/
lemma readCases_mode (mode mode' : SyncMode)
    (hmode : ∀ kind, mode.accepts kind = mode'.accepts kind) (c : Cursor) :
    Assembler.readCases { a with mode := mode } c =
      Assembler.readCases { a with mode := mode' } c := by
  have hheader (header : Text) : Assembler.kindOfHeader? { a with mode := mode } header =
      Assembler.kindOfHeader? { a with mode := mode' } header := by
    unfold Assembler.kindOfHeader?
    simp only [hmode]
  induction c using readCases_induction { a with mode := mode } with
  | nil n => rw [Assembler.readCases, Assembler.readCases]
  | skip n line rest hkind ih =>
    rw [readCases_below hkind, readCases_below ((hheader _).symm.trans hkind), ih]
  | fail n line rest kind e hkind hbody =>
    rw [readCases_fail hkind hbody, readCases_fail ((hheader _).symm.trans hkind) hbody]
    rfl
  | take n line x y kind body hkind hbody ih =>
    rw [readCases_take hkind hbody, readCases_take ((hheader _).symm.trans hkind) hbody, ih]
    rfl

/-! ## Passages by mode -/

/-- Of the passages of a block whose inner lines are no headers, a mode takes those of the kinds
that it accepts. -/
theorem Passages.filter_kind {c : Cursor} {ps : List Passage} (h : Passages a c ps)
    (hall : ∀ kind, a.mode.accepts kind)
    (hclear : ∀ p ∈ ps, ∀ line ∈ p.lines, ∀ kind,
      ¬ Text.startsWith (headMark a.dialect kind) (Text.trim line)) (mode : SyncMode) :
    Passages { a with mode := mode } c (ps.filter fun p => mode.accepts p.kind) := by
  induction h with
  | done n => exact .done n
  | skip hkind below ih =>
    refine .skip (kindOfHeader?_eq_none_iff.mpr fun kind _ => ?_) (ih hclear)
    exact kindOfHeader?_eq_none_iff.mp hkind kind (hall kind)
  | @take n line x y kind body ps hkind hbody below ih =>
    obtain ⟨hinside, hclear⟩ := List.forall_mem_cons.mp hclear
    have ih := ih hclear
    have hstart := (kindOfHeader?_eq_some_iff.mp hkind).2
    by_cases haccepts : mode.accepts kind = true
    · rw [List.filter_cons_of_pos (by exact haccepts)]
      exact .take (kindOfHeader?_eq_some_iff.mpr ⟨haccepts, hstart⟩) hbody ih
    · -- the header and all lines of the passage are passed over
      rw [List.filter_cons_of_neg (by exact haccepts)]
      refine .skip (kindOfHeader?_eq_none_iff.mpr fun other hother hmark => ?_) ?_
      · cases kind <;> cases other
        · exact haccepts hother
        · exact not_startsWith_headMark hmark hstart
        · exact not_startsWith_headMark hstart hmark
        · exact haccepts hother
      · refine .skip_lines (fun inner hinner => ?_) ih
        exact kindOfHeader?_eq_none_iff.mpr fun other _ => hinside inner hinner other

/-! ## Cases by kind -/

/-- The warnings that name one of the cases. -/
def warningsOf (cases : List TestCase) (warnings : List AssemblyWarning) : List AssemblyWarning :=
  warnings.filter fun warning => cases.any (·.name = warning.case)

/-- The cases of one kind and their warnings. -/
def ofKind (cases : ParsedCases) : CaseKind → ParsedCases
  | .add => ⟨cases.added, [], warningsOf cases.added cases.warnings⟩
  | .update => ⟨[], cases.updated, warningsOf cases.updated cases.warnings⟩

/-- A warning names the case that it comes with, and the name tells the kind of the case. -/
lemma Passages.name_spec {c : Cursor} {ps : List Passage} (h : Passages a c ps) {p : Passage}
    (hp : p ∈ ps) : nameMark a.dialect p.kind <+: (p.case a).name ∧
      ∀ warning ∈ p.body.warning, warning.case = (p.case a).name := by
  obtain ⟨hkind, hbody⟩ := h.spec hp
  obtain ⟨t, -, hname⟩ := nameOfHeader_of_startsWith (startsWith_of_kindOfHeader? hkind).2
  refine ⟨⟨_, hname.symm⟩, fun warning hwarning => ?_⟩
  obtain ⟨m, hyields⟩ := hbody 0 []
  rw [warning_of_yields_body hyields, Projects.warning?] at hwarning
  split_ifs at hwarning
  · cases hwarning
    rfl
  · cases hwarning

/-- A name tells the kind of its case. -/
lemma eq_of_nameMark_prefix {d : Dialect} {kind kind' : CaseKind} {name : Text}
    (h : nameMark d kind <+: name) (h' : nameMark d kind' <+: name) : kind = kind' := by
  have hapart : ¬ nameMark d .add <+: nameMark d .update ∧
      ¬ nameMark d .update <+: nameMark d .add := by cases d <;> decide
  have hor := List.prefix_or_prefix_of_prefix h h'
  cases kind <;> cases kind'
  · rfl
  · exact (hor.elim hapart.1 hapart.2).elim
  · exact (hor.elim hapart.2 hapart.1).elim
  · rfl

lemma filter_flatMap {α β : Type} {xs : List α} {f : α → List β} {p : α → Bool} {q : β → Bool}
    (h : ∀ x ∈ xs, ∀ y ∈ f x, q y = p x) : (xs.flatMap f).filter q = (xs.filter p).flatMap f := by
  induction xs with
  | nil => rfl
  | cons x xs ih =>
    obtain ⟨hx, hxs⟩ := List.forall_mem_cons.mp h
    rw [List.flatMap_cons, List.filter_append, ih hxs]
    cases hp : p x with
    | true =>
      rw [List.filter_cons_of_pos hp, List.flatMap_cons,
        List.filter_eq_self.mpr fun y hy => (hx y hy).trans hp]
    | false =>
      rw [List.filter_cons_of_neg (by simp [hp]), List.filter_eq_nil_iff.mpr fun y hy => ?_,
        List.nil_append]
      simp [hx y hy, hp]

/-- The cases of the passages of one kind are the cases of that kind, with their warnings. -/
lemma concat_filter_kind {c : Cursor} {ps : List Passage} (h : Passages a c ps) (kind : CaseKind) :
    ParsedCases.concat ((ps.filter (·.kind = kind)).map (Passage.parsed a)) =
      ofKind (.concat (ps.map (Passage.parsed a))) kind := by
  have hwarnings : (ps.filter (·.kind = kind)).flatMap (·.body.warning.toList) =
      warningsOf ((ps.filter (·.kind = kind)).map (Passage.case a))
        (ps.flatMap (·.body.warning.toList)) := by
    refine (filter_flatMap fun p hp warning hwarning => ?_).symm
    obtain ⟨hmark, hcase⟩ := h.name_spec hp
    rw [hcase warning (by simpa using hwarning), Bool.eq_iff_iff, List.any_map, List.any_eq_true,
      decide_eq_true_iff]
    constructor
    · rintro ⟨p', hp', hname⟩
      obtain ⟨hp', hkind⟩ := List.mem_filter.mp hp'
      have hmark' := (h.name_spec hp').1
      rw [of_decide_eq_true hname] at hmark'
      rw [← of_decide_eq_true hkind]
      exact eq_of_nameMark_prefix hmark hmark'
    · intro hkind
      exact ⟨p, List.mem_filter.mpr ⟨hp, decide_eq_true hkind⟩, decide_eq_true rfl⟩
  have hnone (kind' : CaseKind) (hkind : kind' ≠ kind) :
      (ps.filter (·.kind = kind)).filter (·.kind = kind') = [] := by
    rw [List.filter_filter, List.filter_eq_nil_iff]
    intro p _
    simp only [Bool.and_eq_true, decide_eq_true_eq, not_and]
    exact fun heq heq' => hkind (heq.symm.trans heq')
  have hsame : (ps.filter (·.kind = kind)).filter (·.kind = kind) = ps.filter (·.kind = kind) := by
    rw [List.filter_filter]
    simp only [Bool.and_self]
  rw [concat_parsed, concat_parsed, hwarnings]
  cases kind with
  | add => rw [hsame, hnone .update (by decide)]; rfl
  | update => rw [hsame, hnone .add (by decide)]; rfl

/-! ## Blocks by mode -/

/-- The mode for the cases of one kind. -/
def modeFor : CaseKind → SyncMode
  | .add => .addOnly
  | .update => .updateOnly

/-- Validation reads a block as the mode for both kinds does. Where the latter succeeds, and no line
inside a case starts with a mark of the dialect, the mode for one kind gives the cases of that kind
alone, and their warnings. -/
theorem assemble_by_mode (a : Assembler) (block : Text) :
    Assembler.assemble { a with mode := .validation } block =
        Assembler.assemble { a with mode := .both } block ∧
      ∀ cases, (Assembler.assemble { a with mode := .both } block).value = .ok cases →
        (∀ line, InsideCase { a with mode := .both } block line → ∀ kind,
          ¬ Text.startsWith (headMark a.dialect kind) (Text.trim line)) →
        (Assembler.assemble { a with mode := .addOnly } block).value =
            .ok ⟨cases.added, [], warningsOf cases.added cases.warnings⟩ ∧
          (Assembler.assemble { a with mode := .updateOnly } block).value =
            .ok ⟨[], cases.updated, warningsOf cases.updated cases.warnings⟩ := by
  constructor
  · have hread := readCases_mode (a := a) .validation .both (by rintro (_ | _) <;> rfl)
      (Cursor.ofText block)
    simp only [Assembler.assemble, hread]
    rfl
  · intro cases hcases hclear
    obtain ⟨ps, hps, rfl⟩ := assemble_eq_ok_iff_passages.mp hcases
    have hkind (kind : CaseKind) :
        (Assembler.assemble { a with mode := modeFor kind } block).value =
          .ok (ofKind (.concat (ps.map (Passage.parsed { a with mode := .both }))) kind) := by
      have hfilter := hps.filter_kind (by rintro (_ | _) <;> rfl)
        (fun p hp line hline => hclear line ⟨ps, hps, p, hp, hline⟩) (modeFor kind)
      have haccepts : (fun p : Passage => (modeFor kind).accepts p.kind) =
          fun p : Passage => decide (p.kind = kind) := by
        funext p
        cases kind <;> cases p.kind <;> rfl
      rw [haccepts] at hfilter
      exact assemble_eq_ok_iff_passages.mpr ⟨_, hfilter, (concat_filter_kind hps kind).symm⟩
    exact ⟨hkind .add, hkind .update⟩

/-! ## A sample -/

/-- The bodies of laid-out drafts are the lines inside the cases of their block. -/
lemma passages_drafts {drafts : List Draft} (hmode : ∀ kind, a.mode.accepts kind)
    (h : ∀ draft ∈ drafts, draft.LaidOut a.dialect)
    (hcheck : ∀ draft ∈ drafts, Projects.check a.config (Text.trim draft.name)
      (draft.projects.map Text.trim) = .ok ()) (n : ℕ) :
    ∃ ps, Passages a ⟨n, (drafts.flatMap (Draft.lines a.dialect)).map Text.trimEnd⟩ ps ∧
      ps.map Passage.lines =
        drafts.map fun draft => (draft.bodyLines a.dialect).map Text.trimEnd := by
  induction drafts generalizing n with
  | nil => exact ⟨[], .done n, rfl⟩
  | cons draft drafts ih =>
    obtain ⟨hdraft, h⟩ := List.forall_mem_cons.mp h
    obtain ⟨hfirst, hcheck⟩ := List.forall_mem_cons.mp hcheck
    have hkind := kindOfHeader?_draft hmode hdraft.name
    have htakes := takes_body hdraft hfirst
    rw [← nameOfHeader_headerLine hdraft.name] at htakes
    rw [← trim_trimEnd] at hkind htakes
    let x := (draft.bodyLines a.dialect).map Text.trimEnd
    let closers := (closerLines a.dialect ++ [[]]).map Text.trimEnd
    obtain ⟨ps, hps, hlines⟩ := ih h hcheck (n + 1 + x.length + closers.length)
    have hbody := htakes.yields (steady_readBody _ _ _ _).forward (n + 1)
      (closers ++ (drafts.flatMap (Draft.lines a.dialect)).map Text.trimEnd)
    rw [List.flatMap_cons, List.map_append, lines_append]
    refine ⟨_, .take hkind hbody (.skip_lines (kindOfHeader?_closer rfl) hps), ?_⟩
    rw [List.map_cons, List.map_cons, hlines]

def orderDraft : Draft where
  name := "<NEW>: Order"
  description := [.line "Orders a cart"]
  prerequisites := []
  testData := []
  steps := [⟨["Order"], ["Ordered"], ["None"]⟩]
  projects := ["MASTER"]

def returnDraft : Draft :=
  { orderDraft with name := "TC-GID-7: Return" }

lemma laidOut_orders :
    ∀ draft ∈ [orderDraft, returnDraft], draft.LaidOut .keywordTable := by
  rw [List.forall_mem_cons, List.forall_mem_singleton]
  refine ⟨⟨⟨by decide, by decide⟩, ?_, ?_, ?_, ?_, ?_, ?_, ?_, ?_⟩,
    ⟨⟨by decide, by decide⟩, ?_, ?_, ?_, ?_, ?_, ?_, ?_, ?_⟩⟩ <;> decide

def orderAssembler (mode : SyncMode) : Assembler :=
  ⟨teamConfig, .keywordTable, mode, "suite/orders.robot"⟩

def orderBlock : Text :=
  draftBlock .keywordTable [orderDraft, returnDraft]

theorem assemble_by_mode_orders :
    let cases : ParsedCases :=
      .concat ([orderDraft, returnDraft].map fun draft =>
        draft.trimmed.parsed (orderAssembler .both))
    ((orderAssembler .both).assemble orderBlock).value = .ok cases ∧
      (∀ line, InsideCase (orderAssembler .both) orderBlock line → ∀ kind,
        ¬ Text.startsWith (headMark .keywordTable kind) (Text.trim line)) ∧
      ((orderAssembler .addOnly).assemble orderBlock).value =
        .ok ⟨[orderDraft.case (orderAssembler .both)], [],
          [.onlyDefaultProject "<NEW>: Order" "MASTER"]⟩ ∧
      ((orderAssembler .updateOnly).assemble orderBlock).value =
        .ok ⟨[], [returnDraft.case (orderAssembler .both)],
          [.onlyDefaultProject "TC-GID-7: Return" "MASTER"]⟩ := by
  intro cases
  have hmode (kind : CaseKind) : (orderAssembler .both).mode.accepts kind = true := by
    cases kind <;> rfl
  have hcheck : ∀ draft ∈ [orderDraft, returnDraft], Projects.check teamConfig
      (Text.trim draft.name) (draft.projects.map Text.trim) = .ok () := by
    rw [List.forall_mem_cons, List.forall_mem_singleton]
    exact ⟨rfl, rfl⟩
  have hcases : ((orderAssembler .both).assemble orderBlock).value = .ok cases :=
    assemble_laidOut hmode laidOut_orders hcheck
  have hclear : ∀ line, InsideCase (orderAssembler .both) orderBlock line → ∀ kind,
      ¬ Text.startsWith (headMark .keywordTable kind) (Text.trim line) := by
    rintro line ⟨ps, hps, p, hp, hline⟩ kind
    obtain ⟨ps', hps', hlines⟩ := passages_drafts hmode laidOut_orders hcheck 0
    have hblock : blockLines orderBlock =
        ([orderDraft, returnDraft].flatMap (Draft.lines .keywordTable)).map Text.trimEnd :=
      blockLines_draftBlock laidOut_orders
    rw [ofText_eq, hblock] at hps
    obtain rfl := hps.unique hps'
    have hmem : p.lines ∈ [orderDraft, returnDraft].map fun draft =>
        (draft.bodyLines .keywordTable).map Text.trimEnd := hlines ▸ List.mem_map_of_mem hp
    have hbodies : ∀ ls ∈ [orderDraft, returnDraft].map (fun draft =>
        (draft.bodyLines .keywordTable).map Text.trimEnd), ∀ line ∈ ls,
        ¬ Text.startsWith (headMark .keywordTable .add) (Text.trim line) ∧
          ¬ Text.startsWith (headMark .keywordTable .update) (Text.trim line) := by decide
    obtain ⟨hadd, hupdate⟩ := hbodies p.lines hmem line hline
    cases kind
    · exact hadd
    · exact hupdate
  obtain ⟨hadd, hupdate⟩ := (assemble_by_mode (orderAssembler .both) orderBlock).2 cases hcases hclear
  exact ⟨hcases, hclear, hadd, hupdate⟩

end TestCatalog.Proofs
