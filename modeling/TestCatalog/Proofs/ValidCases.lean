import TestCatalog.Proofs.Acceptance
import TestCatalog.Proofs.Maps

/-!
# Assembled cases are valid

The assembler never validates a case. Still every case that it takes is valid: a header carries a
name, a body has a step, and its scope is the default project and projects that passed their check.
-/

namespace TestCatalog.Proofs

variable {a : Assembler}

/-- A case as the assembler leaves it, valid and without a track. -/
structure ValidCase (a : Assembler) (case : TestCase) : Prop where
  valid : case.validate a.config = .ok ()
  inDefault : case.projects.contains a.config.defaultProject = true
  untracked : ∀ project, case.track? project = none
  folder : case.folder = a.folder

/-! ## Taken cases -/

lemma triads_ne_nil {case line : Text} {count : ℕ} {c c' : Cursor} {triads : List Triad}
    (h : Yields (stepTriads case count line) c triads c') : triads ≠ [] := by
  rw [stepTriads_eq] at h
  obtain ⟨x, c₁, -, h⟩ := yields_bind_iff.mp h
  obtain ⟨_, c₂, -, h⟩ := yields_bind_iff.mp h
  obtain ⟨others, c₃, -, h⟩ := yields_bind_iff.mp h
  obtain ⟨rfl, -⟩ := yields_pure_iff.mp h
  exact List.cons_ne_nil _ _

lemma steps_ne_nil {case : Text} {c c' : Cursor} {steps : List Triad}
    (h : Yields (Steps.read case) c steps c') : steps ≠ [] := by
  obtain ⟨_, c₁, -, h⟩ := yields_bind_iff.mp h
  obtain ⟨line, c₂, -, h⟩ := yields_bind_iff.mp h
  exact triads_ne_nil h

lemma trim_nameOfHeader_ne_nil {header : Text} {kind : CaseKind}
    (h : a.kindOfHeader? header = some kind) : Text.trim (a.dialect.nameOfHeader header) ≠ [] := by
  obtain ⟨t, -, hname⟩ := nameOfHeader_of_startsWith (startsWith_of_kindOfHeader? h).2
  rw [hname, trim_append_of_bareEnds (bareEnds_nameMark _ _) (nameMark_ne_nil _ _)]
  exact List.append_ne_nil_of_left_ne_nil (nameMark_ne_nil _ _) _

/-- What makes a case of a body valid: its header, its steps and the check of its projects. -/
lemma validCase_takenCase {kind : CaseKind} {header : Text} {body : CaseBody} {c c' : Cursor}
    (hkind : a.kindOfHeader? header = some kind) (h : Yields (bodyBelow a header) c body c') :
    ValidCase a (takenCase a kind header body) := by
  obtain ⟨c₁, c₂, c₃, c₄, c₅, -, -, -, -, hsteps, hprojects⟩ := yields_readBody_iff.mp h
  obtain ⟨scope, -, hcheck, hlisted, -⟩ := yields_readProjects_iff.mp hprojects
  have hbody : body.projects = Projects.listed scope := congrArg Prod.fst hlisted
  rw [← hbody] at hcheck
  have hkeys (project : Text) (hproject : project ∈ (takenCase a kind header body).projectNames) :
      a.config.allows project = true := by
    obtain ⟨e, he, rfl⟩ := List.mem_map.mp hproject
    rcases (mem_scope_iff.mp he).1 with hdefault | hlist
    · simp [SyncConfig.allows, hdefault]
    · exact (check_eq_ok_iff.mp hcheck _ hlist).2.2
  have hdefault : (a.config.defaultProject, none) ∈ (takenCase a kind header body).projects.entries :=
    mem_scope_iff.mpr ⟨.inl rfl, rfl⟩
  refine ⟨?_, ?_, fun project => ?_, rfl⟩
  · have hsome : (takenCase a kind header body).steps ≠ [] := by
      simpa [takenCase, CaseBody.toCase] using steps_ne_nil hsteps
    have hscope : (takenCase a kind header body).projectNames ≠ [] :=
      List.ne_nil_of_mem (List.mem_map_of_mem hdefault)
    exact TestCase.validate_eq_ok_iff.mpr
      ⟨trim_nameOfHeader_ne_nil hkind, hsome, hscope, hkeys⟩
  · rw [SortedMap.contains, get?_eq_some_iff.mpr hdefault]
    rfl
  · rw [TestCase.track?]
    cases htrack : (takenCase a kind header body).projects.get? project with
    | none => rfl
    | some track =>
      obtain rfl : track = none := (mem_scope_iff.mp (get?_eq_some_iff.mp htrack)).2
      rfl

lemma taken_valid {c : Cursor} {run : List Taken} (h : Run a c run) : ∀ taken ∈ run,
    ValidCase a taken.case ∧ taken.case.globalId = a.globalId taken.kind taken.case.name := by
  induction h with
  | done n => simp
  | skip hkind below ih => exact ih
  | take hkind hbody below ih =>
    exact List.forall_mem_cons.mpr ⟨⟨validCase_takenCase hkind hbody, rfl⟩, ih⟩

/-! ## Blocks -/

lemma mem_concat {run : List Taken} {case : TestCase} :
    (case ∈ (ParsedCases.concat (run.map Taken.parsed)).added →
        ∃ taken ∈ run, taken.kind = .add ∧ taken.case = case) ∧
      (case ∈ (ParsedCases.concat (run.map Taken.parsed)).updated →
        ∃ taken ∈ run, taken.kind = .update ∧ taken.case = case) := by
  induction run with
  | nil => exact ⟨fun h => (List.not_mem_nil h).elim, fun h => (List.not_mem_nil h).elim⟩
  | cons taken run ih =>
    obtain ⟨above, kind, first, warning⟩ := taken
    constructor
    · intro h
      rcases List.mem_append.mp h with h | h
      · cases kind with
        | add => exact ⟨_, List.mem_cons_self, rfl, (List.mem_singleton.mp h).symm⟩
        | update => exact (List.not_mem_nil h).elim
      · obtain ⟨other, hother, h⟩ := ih.1 h
        exact ⟨other, List.mem_cons_of_mem _ hother, h⟩
    · intro h
      rcases List.mem_append.mp h with h | h
      · cases kind with
        | add => exact (List.not_mem_nil h).elim
        | update => exact ⟨_, List.mem_cons_self, rfl, (List.mem_singleton.mp h).symm⟩
      · obtain ⟨other, hother, h⟩ := ih.2 h
        exact ⟨other, List.mem_cons_of_mem _ hother, h⟩

/-- Every case of an assembled block is valid. A case without identifier has the placeholder of its
dialect, and any other case the identifier that its name carries. -/
theorem assemble_valid {block : Text} {cases : ParsedCases}
    (h : (a.assemble block).value = .ok cases) :
    (∀ case ∈ cases.added, ValidCase a case ∧ case.globalId = a.dialect.profile.placeholder) ∧
      ∀ case ∈ cases.updated,
        ValidCase a case ∧ case.globalId = a.dialect.idOfName case.name := by
  obtain ⟨run, hrun, rfl⟩ := assemble_eq_ok_iff.mp h
  constructor
  · intro case hcase
    obtain ⟨taken, htaken, hkind, rfl⟩ := mem_concat.1 hcase
    obtain ⟨hvalid, hid⟩ := taken_valid hrun taken htaken
    rw [hkind] at hid
    exact ⟨hvalid, hid⟩
  · intro case hcase
    obtain ⟨taken, htaken, hkind, rfl⟩ := mem_concat.2 hcase
    obtain ⟨hvalid, hid⟩ := taken_valid hrun taken htaken
    rw [hkind] at hid
    exact ⟨hvalid, hid⟩

theorem assemble_valid_checkout :
    (cartAssembler.assemble checkoutBlock).value =
        .ok (.concat [checkoutDraft.trimmed.parsed cartAssembler]) ∧
      ValidCase cartAssembler (checkoutDraft.trimmed.case cartAssembler) ∧
      (checkoutDraft.trimmed.case cartAssembler).globalId = "NEW" := by
  refine ⟨assemble_checkoutBlock, ?_⟩
  exact (assemble_valid assemble_checkoutBlock).1 _ List.mem_cons_self

end TestCatalog.Proofs
