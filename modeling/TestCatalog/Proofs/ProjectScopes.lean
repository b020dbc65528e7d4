import TestCatalog.Proofs.SectionGrammar
import TestCatalog.Proofs.ValidCases

/-!
# Project scopes

What a projects line says is its pieces between commas. They are the scope of the case, together
with the default project, if an author may list each of them; the first one that may not be listed
says why the line is refused. A configuration may hold projects that no line can name.
-/

namespace TestCatalog.Proofs

/-! ## Project lines -/

/-- A projects line: behind the mark stand pieces between commas, each a project without the blanks
at its ends. -/
def Lists (line : Text) (projects : List Text) : Prop :=
  ∃ pieces : List Text, pieces ≠ [] ∧ (∀ piece ∈ pieces, ',' ∉ piece) ∧
    Text.trim line = "Projects:" ++ Text.join "," pieces ∧ projects = pieces.map Text.trim

/-- Whether an author may list the project. -/
def MayList (config : SyncConfig) (project : Text) : Prop :=
  project ≠ [] ∧ project ≠ "NA" ∧ (project = config.defaultProject ∨ project ∈ config.projects)

/-- What a line makes of a case: its scope, where no project is tracked, and a warning. -/
inductive AcceptsProjects (config : SyncConfig) (d : Dialect) (case line : Text) :
    SortedMap Text (Option Track) × Option AssemblyWarning → Prop where
  | mk {projects : List Text} {scope : SortedMap Text (Option Track)}
      {warning : Option AssemblyWarning} (hlists : Lists line projects)
      (hlist : ∀ project ∈ projects, MayList config project)
      (hscope : ∀ project track, (project, track) ∈ scope.entries ↔
        (project = config.defaultProject ∨ project ∈ projects) ∧ track = none)
      (hwarning : ∀ w, warning = some w ↔
        (d = .keywordTable ∧ projects = [config.defaultProject]) ∧
          w = .onlyDefaultProject case config.defaultProject) :
      AcceptsProjects config d case line (scope, warning)

/-- Why a line is refused: it is no projects line, or its first project that an author may not list
is empty, stands for no project or is not configured. -/
inductive RefusesProjects (config : SyncConfig) (case line : Text) : GrammarError → Prop where
  | missing (hline : ¬ ("Projects:" : Text) <+: Text.trim line) :
      RefusesProjects config case line (.missingProjectsLine case)
  | empty {above below : List Text} {project : Text}
      (hlists : Lists line (above ++ project :: below))
      (habove : ∀ other ∈ above, MayList config other) (hproject : project = [] ∨ project = "NA") :
      RefusesProjects config case line (.emptyProjectScope case)
  | unknown {above below : List Text} {project : Text}
      (hlists : Lists line (above ++ project :: below))
      (habove : ∀ other ∈ above, MayList config other) (hne : project ≠ []) (hna : project ≠ "NA")
      (hproject : ¬ (project = config.defaultProject ∨ project ∈ config.projects)) :
      RefusesProjects config case line (.unknownProject project case)

variable {config : SyncConfig} {d : Dialect} {case line project : Text} {projects : List Text}

lemma allows_iff : config.allows project = true ↔
    project = config.defaultProject ∨ project ∈ config.projects := by
  simp [SyncConfig.allows]

lemma lists_iff : Lists line projects ↔
    ∃ scope, Text.stripStart? Projects.mark (Text.trim line) = some scope ∧
      Projects.listed scope = projects := by
  constructor
  · rintro ⟨pieces, hne, hcomma, hline, rfl⟩
    refine ⟨Text.join "," pieces, ?_, ?_⟩
    · rw [hline]
      exact stripStart?_append _ _
    · rw [Projects.listed]
      exact congrArg (List.map Text.trim) (List.splitOn_intercalate ',' hcomma hne)
  · rintro ⟨scope, hscope, rfl⟩
    refine ⟨scope.splitOn ',', List.splitOn_ne_nil ',' scope, fun _ => notMem_of_mem_splitOn, ?_, rfl⟩
    rw [stripStart?_eq_some hscope]
    exact congrArg (_ ++ ·) (List.intercalate_splitOn ',').symm

lemma check_ok_iff :
    Projects.check config case projects = .ok () ↔ ∀ project ∈ projects, MayList config project := by
  rw [check_eq_ok_iff]
  simp only [allows_iff]
  rfl

/-- The check passes the projects that an author may list. -/
lemma check_listed_append {above : List Text} (below : List Text)
    (h : ∀ project ∈ above, MayList config project) :
    Projects.check config case (above ++ below) = Projects.check config case below := by
  induction above with
  | nil => rfl
  | cons project above ih =>
    obtain ⟨⟨hne, hna, hallows⟩, habove⟩ := List.forall_mem_cons.mp h
    have hnamed : ¬ (project = [] ∨ project = Projects.noProject) := not_or.mpr ⟨hne, hna⟩
    rw [List.cons_append, Projects.check, if_neg hnamed, if_pos (allows_iff.mpr hallows), ih habove]

lemma warning?_eq_some_iff {w : AssemblyWarning} :
    Projects.warning? config d case projects = some w ↔
      (d = .keywordTable ∧ projects = [config.defaultProject]) ∧
        w = .onlyDefaultProject case config.defaultProject := by
  rw [Projects.warning?, Option.ite_none_right_eq_some, Option.some.injEq]
  exact and_congr_right fun _ => eq_comm

/-! ## Reading -/

/-- What reading a projects line gives to a case. -/
def shownScope (config : SyncConfig) (d : Dialect)
    (read : List Text × Option AssemblyWarning) :
    SortedMap Text (Option Track) × Option AssemblyWarning :=
  (CaseBody.scope config d read.1, read.2)

lemma read_acceptsProjects {c : Cursor}
    {shown : SortedMap Text (Option Track) × Option AssemblyWarning}
    (h : AcceptsProjects config d case c.nextOrBlank.1 shown) :
    ∃ read, Yields (Projects.read config d case) c read c.nextOrBlank.2 ∧
      shownScope config d read = shown := by
  obtain @⟨projects, scope, warning, hlists, hlist, hscope, hwarning⟩ := h
  obtain ⟨scope', hstrip, rfl⟩ := lists_iff.mp hlists
  refine ⟨_, yields_readProjects_iff.mpr ⟨scope', hstrip, check_ok_iff.mpr hlist, rfl, rfl⟩, ?_⟩
  refine Prod.ext (eq_of_mem_entries_iff fun ⟨project, track⟩ => ?_) (Option.ext fun w => ?_)
  · exact mem_scope_iff.trans (hscope project track).symm
  · exact warning?_eq_some_iff.trans (hwarning w).symm

lemma readProjects_of_lists {e : GrammarError} {c : Cursor} (hlists : Lists c.nextOrBlank.1 projects)
    (hcheck : Projects.check config case projects = .error e) :
    (Projects.read config d case c).result = .error e := by
  obtain ⟨scope, hstrip, rfl⟩ := lists_iff.mp hlists
  exact readProjects_of_error hstrip hcheck

lemma read_refusesProjects {e : GrammarError} {c : Cursor}
    (h : RefusesProjects config case c.nextOrBlank.1 e) :
    (Projects.read config d case c).result = .error e := by
  cases h with
  | missing hline =>
    have hstrip : Text.stripStart? Projects.mark (Text.trim c.nextOrBlank.1) = none :=
      stripStart?_eq_none hline
    have hnext : Yields Reader.nextTrimmed c (Text.trim c.nextOrBlank.1) c.nextOrBlank.2 := ⟨rfl, rfl⟩
    rw [Projects.read, result_bind_of_yields hnext, hstrip]
    exact (bind_of_error _ rfl).1
  | @empty above below project hlists habove hproject =>
    have hproject : project = [] ∨ project = Projects.noProject := hproject
    apply readProjects_of_lists hlists
    rw [check_listed_append _ habove, Projects.check, if_pos hproject]
  | @unknown above below project hlists habove hne hna hproject =>
    have hnamed : ¬ (project = [] ∨ project = Projects.noProject) := not_or.mpr ⟨hne, hna⟩
    apply readProjects_of_lists hlists
    rw [check_listed_append _ habove, Projects.check, if_neg hnamed,
      if_neg (mt allows_iff.mp hproject)]

lemma accepts_or_refuses (config : SyncConfig) (d : Dialect) (case line : Text) :
    (∃ shown, AcceptsProjects config d case line shown) ∨
      ∃ e, RefusesProjects config case line e := by
  by_cases hmark : ("Projects:" : Text) <+: Text.trim line
  swap
  · exact .inr ⟨_, .missing hmark⟩
  obtain ⟨scope, hscope⟩ := hmark
  have hlists : Lists line (Projects.listed scope) :=
    lists_iff.mpr ⟨scope, hscope ▸ stripStart?_append _ _, rfl⟩
  rcases exists_first_not (MayList config) (Projects.listed scope) with
    hall | ⟨above, project, below, hsplit, habove, hproject⟩
  · exact .inl ⟨(CaseBody.scope config d _, _), hlists, hall, fun _ _ => mem_scope_iff,
      fun _ => warning?_eq_some_iff⟩
  rw [hsplit] at hlists
  by_cases hempty : project = [] ∨ project = "NA"
  · exact .inr ⟨_, .empty hlists habove hempty⟩
  · obtain ⟨hne, hna⟩ := not_or.mp hempty
    exact .inr ⟨_, .unknown hlists habove hne hna fun hknown => hproject ⟨hne, hna, hknown⟩⟩

/-- Reading a projects line accepts exactly the lines whose projects an author may list. The scope
is these projects and the default one, and the error is about the first project that is not
accepted. -/
theorem read_projects_iff (config : SyncConfig) (d : Dialect) (case : Text) (c : Cursor) :
    (∀ shown c', (∃ read, Yields (Projects.read config d case) c read c' ∧
        shownScope config d read = shown) ↔
      AcceptsProjects config d case c.nextOrBlank.1 shown ∧ c' = c.nextOrBlank.2) ∧
    ∀ e, (Projects.read config d case c).result = .error e ↔
      RefusesProjects config case c.nextOrBlank.1 e := by
  apply yields_iff_and_error_iff
  · rintro shown c' ⟨haccepts, rfl⟩
    exact read_acceptsProjects haccepts
  · exact fun hrefuses => read_refusesProjects hrefuses
  · rcases accepts_or_refuses config d case c.nextOrBlank.1 with ⟨shown, haccepts⟩ | hrefuses
    · exact .inl ⟨shown, _, haccepts, rfl⟩
    · exact .inr hrefuses

/-! ## Configured projects -/

/-- Reading the line `Projects: ` followed by the project succeeds, and the case has the project in
its scope. -/
def CanList (config : SyncConfig) (d : Dialect) (case project : Text) : Prop :=
  ∃ read c, Yields (Projects.read config d case) (Cursor.ofText ("Projects: " ++ project)) read c ∧
    project ∈ (CaseBody.scope config d read.1).keys

/-- A project that a line can name. -/
structure IsListable (project : Text) : Prop where
  ne_nil : project ≠ []
  ne_reserved : project ≠ "NA"
  trim_eq : Text.trim project = project
  comma : ',' ∉ project
  feed : '\n' ∉ project

/-- What a line lists that is meant to list the project: its pieces up to the end of the line. -/
def listedPieces (project : Text) : List Text :=
  ((project.takeWhile (· ≠ '\n')).splitOn ',').map Text.trim

lemma mem_keys_scope :
    project ∈ (CaseBody.scope config d projects).keys ↔
      project = config.defaultProject ∨ project ∈ projects := by
  constructor
  · intro h
    obtain ⟨e, he, rfl⟩ := List.mem_map.mp h
    exact (mem_scope_iff.mp he).1
  · exact fun h => List.mem_map.mpr ⟨(project, none), mem_scope_iff.mpr ⟨h, rfl⟩, rfl⟩

/-- The first line of the text goes up to the first line feed in the project. -/
lemma nextOrBlank_projectsText (project : Text) :
    (Cursor.ofText ("Projects: " ++ project)).nextOrBlank.1 =
      Text.trimEnd ("Projects: " ++ project.takeWhile (· ≠ '\n')) := by
  have hne (line : Text) : ("Projects: " : Text) ++ line ≠ [] := List.cons_ne_nil _ _
  have hline (line : Text) (hfeed : '\n' ∉ line) :
      pieces ("Projects: " ++ line) = ["Projects: " ++ line] := by
    apply List.splitOn_eq_singleton
    rw [List.mem_append, not_or]
    exact ⟨by decide, hfeed⟩
  rw [ofText_eq, blockLines_eq]
  rcases exists_first_not (· ≠ '\n') project with hfeed | ⟨line, c, below, rfl, hfeed, hc⟩
  · have htake : project.takeWhile (· ≠ '\n') = project :=
      List.takeWhile_eq_self_iff.mpr fun c hc => decide_eq_true (hfeed c hc)
    rw [hline project fun hmem => hfeed _ hmem rfl, dropEmptyLast_singleton, if_neg (hne project),
      htake]
    rfl
  · obtain rfl : c = '\n' := not_not.mp hc
    have htake : (line ++ '\n' :: below).takeWhile (· ≠ '\n') = line := by
      rw [List.takeWhile_append_of_pos fun c hc => decide_eq_true (hfeed c hc)]
      exact List.append_nil line
    rw [← List.append_assoc, pieces_append, hline line fun hmem => hfeed _ hmem rfl,
      dropEmptyLast_append _ (pieces_ne_nil below), htake]
    rfl

lemma mem_of_mem_piece {sep c : Char} {t piece : Text} (hpiece : piece ∈ t.splitOn sep)
    (hc : c ∈ piece) : c ∈ t := by
  have hjoin : Text.join [sep] (t.splitOn sep) = t := List.intercalate_splitOn sep
  rw [← hjoin]
  generalize t.splitOn sep = ps at hpiece
  induction ps with
  | nil => cases hpiece
  | cons p ps ih =>
    by_cases hps : ps = []
    · obtain rfl : piece = p := by simpa [hps] using hpiece
      simpa [hps, Text.join] using hc
    rw [join_cons _ _ hps, List.mem_append]
    rcases List.mem_cons.mp hpiece with rfl | hpiece
    · exact .inl hc
    · exact .inr (List.mem_append_right _ (ih hpiece))

lemma isListable_of_mem (hmem : project ∈ listedPieces project) (hne : project ≠ [])
    (hna : project ≠ "NA") : IsListable project := by
  obtain ⟨piece, hpiece, htrim⟩ := List.mem_map.mp hmem
  refine ⟨hne, hna, ?_, fun hcomma => ?_, fun hfeed => ?_⟩
  · rw [← htrim, trim_trim]
  · rw [← htrim] at hcomma
    exact notMem_of_mem_splitOn hpiece (mem_of_mem_trim hcomma)
  · rw [← htrim] at hfeed
    have hline := mem_of_mem_piece hpiece (mem_of_mem_trim hfeed)
    simpa using List.mem_takeWhile_imp hline

lemma IsListable.listedPieces_eq (h : IsListable project) : listedPieces project = [project] := by
  have hline : project.takeWhile (· ≠ '\n') = project :=
    List.takeWhile_eq_self_iff.mpr fun c hc => by
      simpa using ne_of_mem_of_not_mem hc h.feed
  rw [listedPieces, hline, List.splitOn_eq_singleton h.comma, List.map_singleton, h.trim_eq]

lemma exists_projectsScope (project : Text) : ∃ scope,
    Text.stripStart? Projects.mark
        (Text.trim (Cursor.ofText ("Projects: " ++ project)).nextOrBlank.1) = some scope ∧
      Projects.listed scope = listedPieces project := by
  let line : Text := project.takeWhile (· ≠ '\n')
  refine ⟨Text.trimEnd (" " ++ line), ?_, ?_⟩
  · have hmark : ("Projects: " : Text) ++ line = Projects.mark ++ (" " ++ line) := rfl
    rw [nextOrBlank_projectsText, trim_trimEnd, hmark,
      trim_append_of_bareEnds (by decide) (by decide), stripStart?_append]
  · rw [Projects.listed, map_trim_splitOn_trimEnd (by decide)]
    exact map_trim_splitOn_append_left (by decide) (by decide) line

lemma canList_iff_pieces : CanList config d case project ↔
    (∀ piece ∈ listedPieces project, MayList config piece) ∧
      (project = config.defaultProject ∨ project ∈ listedPieces project) := by
  obtain ⟨scope, hscope, hlisted⟩ := exists_projectsScope project
  rw [← @check_ok_iff config case, ← @mem_keys_scope config d]
  constructor
  · rintro ⟨read, c, hread, hmem⟩
    obtain ⟨scope', hscope', hcheck, rfl, -⟩ := yields_readProjects_iff.mp hread
    obtain rfl := Option.some.inj (hscope.symm.trans hscope')
    rw [hlisted] at hcheck hmem
    exact ⟨hcheck, hmem⟩
  · rintro ⟨hcheck, hmem⟩
    rw [← hlisted] at hcheck hmem
    exact ⟨_, _, yields_readProjects_iff.mpr ⟨scope, hscope, hcheck, rfl, rfl⟩, hmem⟩

/-- A configured project can be listed if a line can name it. Any other one only comes into a scope
as the default project, if the pieces that the line does list may be listed. -/
theorem canList_iff (config : SyncConfig) (d : Dialect) (case project : Text)
    (h : project = config.defaultProject ∨ project ∈ config.projects) :
    CanList config d case project ↔ IsListable project ∨
      project = config.defaultProject ∧
        ∀ piece ∈ listedPieces project, MayList config piece := by
  rw [canList_iff_pieces]
  constructor
  · rintro ⟨hlist, hdefault | hmem⟩
    · exact .inr ⟨hdefault, hlist⟩
    · obtain ⟨hne, hna, -⟩ := hlist project hmem
      exact .inl (isListable_of_mem hmem hne hna)
  · rintro (hlistable | ⟨hdefault, hlist⟩)
    · rw [hlistable.listedPieces_eq]
      refine ⟨fun piece hpiece => ?_, .inr List.mem_cons_self⟩
      rw [List.mem_singleton.mp hpiece]
      exact ⟨hlistable.ne_nil, hlistable.ne_reserved, h⟩
    · exact ⟨hlist, .inl hdefault⟩

def coreTeam : Text := "CORE TEAM"

def coreConfig : SyncConfig where
  defaultProject := "MASTER"
  projects := [coreTeam, Projects.noProject]

theorem canList_coreTeam :
    (coreTeam = coreConfig.defaultProject ∨ coreTeam ∈ coreConfig.projects) ∧
      CanList coreConfig .featureScenario "Pay by card" coreTeam := by
  have hconfigured : coreTeam = coreConfig.defaultProject ∨ coreTeam ∈ coreConfig.projects :=
    .inr List.mem_cons_self
  have hlistable : IsListable coreTeam :=
    ⟨by decide, by decide, by decide, by decide, by decide⟩
  exact ⟨hconfigured, (canList_iff _ _ _ _ hconfigured).mpr (.inl hlistable)⟩

/-- The configuration is valid, but a line cannot name the project that is called what authors write
for no project at all. -/
theorem not_canList_reserved :
    coreConfig.validate = .ok () ∧ Projects.noProject ∈ coreConfig.projects ∧
      ¬ CanList coreConfig .featureScenario "Pay by card" Projects.noProject := by
  refine ⟨rfl, List.mem_cons_of_mem _ List.mem_cons_self, fun hcan => ?_⟩
  have hpiece : Projects.noProject ∈ listedPieces Projects.noProject := by decide
  exact ((canList_iff_pieces.mp hcan).1 Projects.noProject hpiece).2.1 rfl

end TestCatalog.Proofs
