import TestCatalog.Proofs.DraftHeaders
import TestCatalog.Proofs.Maps

/-!
# Well-formed documents are accepted

A block that is written from well-formed drafts is assembled, and its cases are those of the
drafts.
-/

namespace TestCatalog.Proofs

/-! ## Project lines -/

lemma intercalate_comma {projects : List Text} (hne : projects ≠ []) :
    " " ++ Text.join ", " projects = [','].intercalate (projects.map (' ' :: ·)) := by
  have hsep : (", " : Text) = [',', ' '] := by decide
  rw [Text.join, hsep]
  induction projects with
  | nil => exact absurd rfl hne
  | cons project projects ih =>
    cases projects with
    | nil => simp [show (" " : Text) = [' '] by decide]
    | cons next others =>
      have ih := ih (List.cons_ne_nil _ _)
      rw [List.intercalate_cons_cons, List.map_cons, List.map_cons, List.intercalate_cons_cons,
        ← List.map_cons, ← ih]
      simp [show (" " : Text) = [' '] by decide]

lemma exists_scope {projects : List Text} (hne : projects ≠ [])
    (h : ∀ project ∈ projects, ',' ∉ project) : ∃ scope,
      Text.stripStart? Projects.mark (Text.trim (Text.trimEnd (projectsLine projects))) =
        some scope ∧ Projects.listed scope = projects.map Text.trim := by
  have hsplit : (" " ++ Text.join ", " projects).splitOn ',' = projects.map (' ' :: ·) := by
    rw [intercalate_comma hne]
    refine List.splitOn_intercalate ',' (fun piece hpiece => ?_) (by simpa using hne)
    obtain ⟨project, hproject, rfl⟩ := List.mem_map.mp hpiece
    simp [h project hproject]
  refine ⟨Text.trimEnd (" " ++ Text.join ", " projects), ?_, ?_⟩
  · rw [trim_trimEnd, projectsLine, List.append_assoc,
      trim_append_of_bareEnds (by decide) (by decide), stripStart?_append]
  · rw [Projects.listed, map_trim_splitOn_trimEnd (by decide), hsplit, List.map_map]
    exact List.map_congr_left fun project _ => trim_append_left (l := [' ']) (by decide) project

variable {config : SyncConfig} {d : Dialect} {case : Text} {projects : List Text}

lemma check_eq_ok_iff : Projects.check config case projects = .ok () ↔
    ∀ project ∈ projects, project ≠ [] ∧ project ≠ Projects.noProject ∧ config.allows project := by
  induction projects with
  | nil => simp [Projects.check]
  | cons project projects ih =>
    rw [Projects.check, List.forall_mem_cons, ← ih]
    split_ifs with hempty hallowed
    · simp only [false_iff]
      tauto
    · tauto
    · simp only [false_iff]
      tauto

lemma takes_projects (hne : projects ≠ []) (hcomma : ∀ project ∈ projects, ',' ∉ project)
    (hcheck : Projects.check config case (projects.map Text.trim) = .ok ()) :
    Takes (Projects.read config d case) [Text.trimEnd (projectsLine projects)]
      (projects.map Text.trim, Projects.warning? config d case (projects.map Text.trim)) := by
  intro n rest
  obtain ⟨scope, hscope, hlisted⟩ := exists_scope hne hcomma
  exact ⟨n + 1, yields_readProjects_iff.mpr ⟨scope, hscope, by rwa [hlisted], by rw [hlisted], rfl⟩⟩

/-! ## Scopes -/

/-- The scope of a case holds its projects and the default one, none of them tracked. The default
project is there too when it is not added, because it is listed then. -/
lemma mem_scope_iff {e : Text × Option Track} :
    e ∈ (CaseBody.scope config d projects).entries ↔
      (e.1 = config.defaultProject ∨ e.1 ∈ projects) ∧ e.2 = none := by
  obtain ⟨project, track⟩ := e
  rw [CaseBody.scope, mem_foldl_insert fun _ => none]
  split_ifs with honly
  · obtain ⟨-, rfl⟩ := honly
    simp
  · simp only [mem_entries_insert_iff, Prod.mk.injEq, SortedMap.entries_empty, List.not_mem_nil]
    tauto

/-- Whether the default project is added makes no difference. -/
lemma scope_eq : CaseBody.scope config d projects =
    .ofList ((config.defaultProject :: projects).map fun project => (project, none)) := by
  refine eq_of_mem_entries_iff fun e => mem_scope_iff.trans ?_
  rw [SortedMap.ofList, List.foldl_map, mem_foldl_insert fun _ => none, List.mem_cons]
  simp [SortedMap.empty]

/-! ## Bodies -/

namespace Draft

def body (config : SyncConfig) (d : Dialect) (draft : Draft) : CaseBody where
  description := draft.description.map readItem
  prerequisites := draft.prerequisites.map readItem
  testData := draft.testData.map readItem
  steps := draft.steps.map trimmedTriad
  projects := draft.projects.map Text.trim
  warning := Projects.warning? config d (Text.trim draft.name) (draft.projects.map Text.trim)

end Draft

/-- The parts of a laid-out draft above its projects line are read. -/
lemma yields_parts {draft : Draft} (h : draft.LaidOut d) (n : ℕ) (rest : List Text) :
    ∃ c₁ c₂ c₃ c₄ m,
      Yields (d.expectOpening (Text.trim (headerLine d draft.name)) case)
        ⟨n, (draft.bodyLines d).map Text.trimEnd ++ rest⟩ () c₁ ∧
      Yields (Section.description.read case) c₁ (draft.description.map readItem) c₂ ∧
      Yields (Section.prerequisites.read case) c₂ (draft.prerequisites.map readItem) c₃ ∧
      Yields (Section.testData.read case) c₃ (draft.testData.map readItem) c₄ ∧
      Yields (Steps.read case) c₄ (draft.steps.map trimmedTriad)
        ⟨m, Text.trimEnd (projectsLine draft.projects) :: rest⟩ := by
  have hopening := takes_expectOpening case h.name
  have hdescription : Takes (Section.description.read case) _ _ :=
    takes_section (takes_free h.description)
  have hprerequisites : Takes (Section.prerequisites.read case) _ _ :=
    takes_section (takes_listing rfl h.prerequisites)
  have htestData : Takes (Section.testData.read case) _ _ :=
    takes_section (takes_listing rfl h.testData)
  have hsteps : Takes (Steps.read case) _ _ := takes_steps h.steps_ne_nil h.step
  obtain ⟨m₁, h₁⟩ := hopening n _
  obtain ⟨m₂, h₂⟩ := hdescription m₁ _
  obtain ⟨m₃, h₃⟩ := hprerequisites m₂ _
  obtain ⟨m₄, h₄⟩ := htestData m₃ _
  obtain ⟨m₅, h₅⟩ := hsteps m₄ (Text.trimEnd (projectsLine draft.projects) :: rest)
  refine ⟨_, _, _, _, m₅, ?_, h₂, h₃, h₄, h₅⟩
  have hlines : (draft.bodyLines d).map Text.trimEnd ++ rest = [Text.trimEnd (openerLine d)] ++
      ((sectionLines .description draft.description).map Text.trimEnd ++
      ((sectionLines .prerequisites draft.prerequisites).map Text.trimEnd ++
      ((sectionLines .testData draft.testData).map Text.trimEnd ++
      (((Steps.label ++ ":") :: stepLines 1 draft.steps ++ [[]]).map Text.trimEnd ++
      Text.trimEnd (projectsLine draft.projects) :: rest)))) := by
    simp [Draft.bodyLines]
  rw [hlines]
  exact h₁

lemma takes_body {draft : Draft} (h : draft.LaidOut d)
    (hcheck : Projects.check config (Text.trim draft.name) (draft.projects.map Text.trim) =
      .ok ()) :
    Takes (CaseBody.read config d (Text.trim (headerLine d draft.name)) (Text.trim draft.name))
      ((draft.bodyLines d).map Text.trimEnd) (draft.body config d) := by
  intro n rest
  obtain ⟨c₁, c₂, c₃, c₄, m, h₁, h₂, h₃, h₄, h₅⟩ := yields_parts h n rest
  obtain ⟨m', h₆⟩ := takes_projects (d := d) h.projects_ne_nil h.projects hcheck m rest
  exact ⟨m', yields_readBody_iff.mpr ⟨c₁, c₂, c₃, c₄, _, h₁, h₂, h₃, h₄, h₅, h₆⟩⟩

lemma projects_of_error {e : GrammarError} (hne : projects ≠ [])
    (hcomma : ∀ project ∈ projects, ',' ∉ project)
    (hcheck : Projects.check config case (projects.map Text.trim) = .error e)
    (n : ℕ) (rest : List Text) :
    (Projects.read config d case ⟨n, Text.trimEnd (projectsLine projects) :: rest⟩).result =
      .error e := by
  obtain ⟨scope, hscope, hlisted⟩ := exists_scope hne hcomma
  rw [← hlisted] at hcheck
  exact readProjects_of_error hscope hcheck

/-- A laid-out draft whose projects do not pass is refused with their error. -/
lemma body_of_error {draft : Draft} {e : GrammarError} (h : draft.LaidOut d)
    (hcheck : Projects.check config (Text.trim draft.name) (draft.projects.map Text.trim) =
      .error e) (n : ℕ) (rest : List Text) :
    (CaseBody.read config d (Text.trim (headerLine d draft.name)) (Text.trim draft.name)
      ⟨n, (draft.bodyLines d).map Text.trimEnd ++ rest⟩).result = .error e := by
  obtain ⟨c₁, c₂, c₃, c₄, m, h₁, h₂, h₃, h₄, h₅⟩ := yields_parts h n rest
  rw [CaseBody.read, result_bind_of_yields h₁, result_bind_of_yields h₂,
    result_bind_of_yields (yields_note _ _), result_bind_of_yields h₃,
    result_bind_of_yields (yields_note _ _), result_bind_of_yields h₄,
    result_bind_of_yields (yields_note _ _), result_bind_of_yields h₅,
    result_bind_of_yields (yields_note _ _)]
  exact (bind_of_error _ (projects_of_error h.projects_ne_nil h.projects hcheck m rest)).1

/-! ## Written forms -/

lemma render_readItem (s : Section) (items : List Item) :
    s.render (items.map readItem) = s.render (items.map trimmedItem) := by
  have hitem (item : Item) :
      Content.ofItem (readItem item) = Content.ofItem (trimmedItem item) := by
    cases item with
    | line text => rfl
    | table rows =>
      rw [readItem, trimmedItem, Content.ofItem, Content.ofItem, map_cellTexts_trim]
  rw [render_eq, render_eq, List.map_map, List.map_map]
  exact congrArg (List.flatMap _) (List.map_congr_left fun item _ => hitem item)

lemma toCase_body (a : Assembler) (draft : Draft) :
    (draft.body a.config a.dialect).toCase a.config a.dialect (Text.trim draft.name)
        (a.globalId (draft.trimmed.kind a.dialect) (Text.trim draft.name)) a.folder =
      draft.trimmed.case a := by
  simp only [CaseBody.toCase, Draft.body, Draft.case, Draft.scope, Draft.trimmed, render_readItem,
    scope_eq]

/-! ## Blocks -/

variable {a : Assembler} {draft : Draft}

lemma kindOfHeader?_draft (hmode : ∀ kind, a.mode.accepts kind) (h : IsName a.dialect draft.name) :
    a.kindOfHeader? (Text.trim (headerLine a.dialect draft.name)) =
      some (draft.trimmed.kind a.dialect) := by
  obtain ⟨kind, rest, hname, htrim, hheader⟩ := exists_rest h
  have hkind : draft.trimmed.kind a.dialect = kind := by
    have hmark : Text.startsWith (headMark a.dialect kind)
        (headerLine a.dialect draft.trimmed.name) :=
      startsWith_headerLine_iff.mpr ⟨_, htrim.symm⟩
    unfold Draft.kind
    cases kind with
    | add => exact if_pos hmark
    | update => exact if_neg (not_startsWith_headMark hmark)
  rw [hkind]
  refine kindOfHeader?_eq_some (hmode kind) (startsWith_iff.mpr ?_)
  rw [hheader]
  exact List.prefix_append _ _

lemma takenCase_draft (h : IsName a.dialect draft.name) :
    takenCase a (draft.trimmed.kind a.dialect) (Text.trim (headerLine a.dialect draft.name))
      (draft.body a.config a.dialect) = draft.trimmed.case a := by
  rw [takenCase, nameOfHeader_headerLine h]
  exact toCase_body a draft

/-- The lines behind the body of a draft are no headers. -/
lemma kindOfHeader?_closer {d : Dialect} (hd : a.dialect = d) :
    ∀ line ∈ (closerLines d ++ [[]]).map Text.trimEnd,
      a.kindOfHeader? (Text.trim line) = none := by
  have hmark : ∀ line ∈ (closerLines d ++ [[]]).map Text.trimEnd, ∀ kind,
      ¬ Text.startsWith (headMark d kind) (Text.trim line) := by
    intro line hline kind
    cases d <;> cases kind <;> revert line <;> decide
  intro line hline
  cases h : a.kindOfHeader? (Text.trim line) with
  | none => rfl
  | some kind => exact absurd (hd ▸ (startsWith_of_kindOfHeader? h).2) (hmark line hline kind)

lemma readCases_closer {d : Dialect} (hd : a.dialect = d) (n : ℕ) (rest : List Text) :
    (a.readCases ⟨n, (closerLines d ++ [[]]).map Text.trimEnd ++ rest⟩).result =
      (a.readCases ⟨0, rest⟩).result := by
  have hskip := kindOfHeader?_closer hd
  revert hskip
  generalize (closerLines d ++ [[]]).map Text.trimEnd = closers
  intro hskip
  induction closers generalizing n with
  | nil => exact readCases_renumber 0 n rest
  | cons line closers ih =>
    obtain ⟨hline, hskip⟩ := List.forall_mem_cons.mp hskip
    exact (readCases_skip hline).trans (ih (n + 1) hskip)

lemma lines_append (d : Dialect) (draft : Draft) (rest : List Text) :
    (draft.lines d).map Text.trimEnd ++ rest = Text.trimEnd (headerLine d draft.name) ::
      ((draft.bodyLines d).map Text.trimEnd ++
        ((closerLines d ++ [[]]).map Text.trimEnd ++ rest)) := by
  simp [Draft.lines]

/-- A laid-out draft adds its case to those below it, if its projects pass. -/
lemma readCases_draft (hmode : ∀ kind, a.mode.accepts kind) (h : draft.LaidOut a.dialect)
    (hcheck : Projects.check a.config (Text.trim draft.name) (draft.projects.map Text.trim) =
      .ok ()) (n : ℕ) (rest : List Text) :
    (a.readCases ⟨n, (draft.lines a.dialect).map Text.trimEnd ++ rest⟩).result =
      (a.readCases ⟨0, rest⟩).result.map (draft.trimmed.parsed a ++ ·) := by
  have hkind := kindOfHeader?_draft hmode h.name
  have hname := nameOfHeader_headerLine h.name
  obtain ⟨m, hm⟩ := takes_body h hcheck (n + 1)
    ((closerLines a.dialect ++ [[]]).map Text.trimEnd ++ rest)
  rw [← hname] at hm
  rw [lines_append, readCases_of_ok (by rwa [trim_trimEnd]) (by rwa [trim_trimEnd]),
    readCases_closer rfl, trim_trimEnd]
  rw [takenCase_draft h.name]
  rfl

lemma readCases_draft_of_error {e : GrammarError} (hmode : ∀ kind, a.mode.accepts kind)
    (h : draft.LaidOut a.dialect)
    (hcheck : Projects.check a.config (Text.trim draft.name) (draft.projects.map Text.trim) =
      .error e) (n : ℕ) (rest : List Text) :
    (a.readCases ⟨n, (draft.lines a.dialect).map Text.trimEnd ++ rest⟩).result = .error e := by
  have hbody := body_of_error h hcheck (n + 1)
    ((closerLines a.dialect ++ [[]]).map Text.trimEnd ++ rest)
  rw [← nameOfHeader_headerLine h.name] at hbody
  have hkind := kindOfHeader?_draft hmode h.name
  rw [← trim_trimEnd] at hbody hkind
  rw [lines_append]
  exact readCases_of_error hkind hbody

lemma readCases_drafts {drafts : List Draft} (hmode : ∀ kind, a.mode.accepts kind)
    (h : ∀ draft ∈ drafts, draft.LaidOut a.dialect)
    (hcheck : ∀ draft ∈ drafts, Projects.check a.config (Text.trim draft.name)
      (draft.projects.map Text.trim) = .ok ()) (n : ℕ) (rest : List Text) :
    (a.readCases ⟨n, (drafts.flatMap (Draft.lines a.dialect)).map Text.trimEnd ++ rest⟩).result =
      (a.readCases ⟨0, rest⟩).result.map
        (.concat (drafts.map fun draft => draft.trimmed.parsed a) ++ ·) := by
  induction drafts generalizing n with
  | nil =>
    have hempty := map_concat_nil (a.readCases ⟨0, rest⟩).result
    exact (readCases_renumber 0 n rest).trans hempty.symm
  | cons draft drafts ih =>
    have ih := ih (fun other hother => h other (List.mem_cons_of_mem draft hother))
      (fun other hother => hcheck other (List.mem_cons_of_mem draft hother)) 0
    rw [List.flatMap_cons, List.map_append, List.append_assoc,
      readCases_draft hmode (h draft List.mem_cons_self) (hcheck draft List.mem_cons_self), ih,
      map_append_append]
    rfl

lemma blockLines_draftBlock {d : Dialect} {drafts : List Draft}
    (h : ∀ draft ∈ drafts, draft.LaidOut d) :
    blockLines (draftBlock d drafts) = (drafts.flatMap (Draft.lines d)).map Text.trimEnd := by
  refine blockLines_terminated fun line hline => ?_
  obtain ⟨draft, hdraft, hline⟩ := List.mem_flatMap.mp hline
  exact (h draft hdraft).oneLine line hline

lemma assemble_laidOut {drafts : List Draft} (hmode : ∀ kind, a.mode.accepts kind)
    (h : ∀ draft ∈ drafts, draft.LaidOut a.dialect)
    (hcheck : ∀ draft ∈ drafts, Projects.check a.config (Text.trim draft.name)
      (draft.projects.map Text.trim) = .ok ()) :
    (a.assemble (draftBlock a.dialect drafts)).value =
      .ok (.concat (drafts.map fun draft => draft.trimmed.parsed a)) := by
  have hread := readCases_drafts hmode h hcheck 0 []
  rw [List.append_nil, readCases_nil] at hread
  show (a.readCases (Cursor.ofText _)).result = _
  rw [ofText_eq, blockLines_draftBlock h, hread]
  exact congrArg Except.ok (append_concat_nil _)

lemma assemble_single (hmode : ∀ kind, a.mode.accepts kind) (h : draft.LaidOut a.dialect)
    (hcheck : Projects.check a.config (Text.trim draft.name) (draft.projects.map Text.trim) =
      .ok ()) :
    (a.assemble (draftBlock a.dialect [draft])).value = .ok (.concat [draft.trimmed.parsed a]) :=
  assemble_laidOut hmode (List.forall_mem_singleton.mpr h) (List.forall_mem_singleton.mpr hcheck)

/-! ## A sample -/

/-- A configuration with two projects beside the default one. -/
def teamConfig : SyncConfig where
  defaultProject := "MASTER"
  projects := ["TEAM_A", "TEAM_B"]

def checkoutDraft : Draft where
  name := "test_NEW_checkout"
  description := [.line "Checks out a cart", .line "Steps: see below"]
  prerequisites := [.line "1) Logged in", .line "- with a saved card"]
  testData := [.table ["item | qty", "apple | 2"]]
  steps := [⟨["Add items", "- two apples"], ["Cart shows 2"], [[]]⟩,
    ⟨["Pay"], ["Receipt shown"], ["check email"]⟩]
  projects := ["TEAM_A", "TEAM_B"]

lemma checkoutDraft_wellFormed : checkoutDraft.WellFormed teamConfig .annotatedFunction where
  name := ⟨by decide, by decide⟩
  description := by decide
  prerequisites := by decide
  testData := by decide
  steps_ne_nil := by decide
  step := by decide
  projects_ne_nil := by decide
  projects := by decide
  oneLine := by decide
  known := by decide

def cartAssembler : Assembler :=
  ⟨teamConfig, .annotatedFunction, .validation, "suite/test_cart.py"⟩

def checkoutBlock : Text :=
  draftBlock .annotatedFunction [checkoutDraft]

lemma accepts_validation (kind : CaseKind) : SyncMode.validation.accepts kind = true := by
  cases kind <;> rfl

lemma assemble_checkoutBlock : (cartAssembler.assemble checkoutBlock).value =
    .ok (.concat [checkoutDraft.trimmed.parsed cartAssembler]) :=
  assemble_single accepts_validation checkoutDraft_wellFormed.toLaidOut rfl

/-! ## Acceptance -/

/-- A block of well-formed drafts whose projects have names is accepted, and its cases are those of
the drafts in their order; the blanks at the ends of names, lines and projects are not kept. -/
theorem assemble_draftBlock {drafts : List Draft} (hmode : a.mode = .validation)
    (h : ∀ draft ∈ drafts, draft.WellFormed a.config a.dialect)
    (hnamed : ∀ draft ∈ drafts, ∀ project ∈ draft.projects, Text.trim project ≠ []) :
    (a.assemble (draftBlock a.dialect drafts)).value =
      .ok (.concat (drafts.map fun draft => draft.trimmed.parsed a)) := by
  have hcheck (draft : Draft) (hdraft : draft ∈ drafts) : Projects.check a.config
      (Text.trim draft.name) (draft.projects.map Text.trim) = .ok () := by
    refine check_eq_ok_iff.mpr fun listed hlisted => ?_
    obtain ⟨project, hproject, rfl⟩ := List.mem_map.mp hlisted
    exact ⟨hnamed draft hdraft project hproject, (h draft hdraft).known project hproject⟩
  exact assemble_laidOut (hmode ▸ accepts_validation)
    (fun draft hdraft => (h draft hdraft).toLaidOut) hcheck

theorem assemble_draftBlock_checkout :
    checkoutDraft.WellFormed teamConfig .annotatedFunction ∧
      (∀ project ∈ checkoutDraft.projects, Text.trim project ≠ []) ∧
      (cartAssembler.assemble (draftBlock .annotatedFunction [checkoutDraft])).value =
        .ok (.concat [checkoutDraft.trimmed.parsed cartAssembler]) := by
  have hnamed : ∀ project ∈ checkoutDraft.projects, Text.trim project ≠ [] := by decide
  refine ⟨checkoutDraft_wellFormed, hnamed, ?_⟩
  exact assemble_draftBlock rfl
    (fun _ hdraft => List.mem_singleton.mp hdraft ▸ checkoutDraft_wellFormed)
    (fun _ hdraft => List.mem_singleton.mp hdraft ▸ hnamed)

/-- A configuration that lists a project without a name. -/
def namelessConfig : SyncConfig :=
  { teamConfig with projects := [[]] }

def namelessDraft : Draft :=
  { checkoutDraft with projects := [[]] }

/-- Where the configuration lists a project without a name, an author cannot list it: the empty name
counts as an empty scope. -/
theorem assemble_draftBlock_nameless :
    namelessDraft.WellFormed namelessConfig .annotatedFunction ∧
      (Assembler.assemble ⟨namelessConfig, .annotatedFunction, .validation, "suite/test_cart.py"⟩
        (draftBlock .annotatedFunction [namelessDraft])).value =
          .error (.emptyProjectScope "test_NEW_checkout") := by
  have h : namelessDraft.WellFormed namelessConfig .annotatedFunction :=
    { checkoutDraft_wellFormed with
      projects_ne_nil := by decide
      projects := by decide
      oneLine := by decide
      known := by decide }
  have hlines : blockLines (draftBlock .annotatedFunction [namelessDraft]) =
      (namelessDraft.lines .annotatedFunction).map Text.trimEnd ++ [] := by
    rw [blockLines_draftBlock fun _ hdraft => List.mem_singleton.mp hdraft ▸ h.toLaidOut,
      List.flatMap_singleton, List.append_nil]
  refine ⟨h, ?_⟩
  show (Assembler.readCases _ (Cursor.ofText _)).result = _
  rw [ofText_eq, hlines]
  exact readCases_draft_of_error accepts_validation h.toLaidOut rfl 0 []

end TestCatalog.Proofs
