import Mathlib.Data.List.Induction
import TestCatalog.Case.Basic
import TestCatalog.Proofs.Maps

/-!
# Updates of a case

After assembly a case takes the names and identifiers that the catalogue issues and the tracks that
its projects keep. A valid case stays valid under any such updates, nothing else of it changes, and
of each kind of update the last one counts.
-/

namespace TestCatalog.Proofs

/-! ## Updates -/

inductive CaseUpdate where
  | assignId (name globalId : Text)
  | setTrack (project : Text) (track : Track)

namespace CaseUpdate

/-- A track for a project that the case does not belong to changes nothing. -/
def apply (case : TestCase) : CaseUpdate → TestCase
  | assignId name globalId => case.assignId name globalId
  | setTrack project track => (case.setTrack? project track).getD case

/-- The name and the identifier that the update issues. -/
def issued? : CaseUpdate → Option (Text × Text)
  | assignId name globalId => some (name, globalId)
  | setTrack _ _ => none

/-- The track that the update has for the project. -/
def trackFor? (project : Text) : CaseUpdate → Option Track
  | assignId _ _ => none
  | setTrack other track => if other = project then some track else none

end CaseUpdate

/-- A case after the updates. -/
def updated (case : TestCase) (updates : List CaseUpdate) : TestCase :=
  updates.foldl CaseUpdate.apply case

variable {case after : TestCase} {config : SyncConfig} {updates : List CaseUpdate}

/-! ## Tracks -/

lemma track?_eq_some_iff {project : Text} {track : Track} :
    case.track? project = some track ↔ (project, some track) ∈ case.projects.entries := by
  rw [TestCase.track?, Option.join_eq_some_iff, get?_eq_some_iff]

/-- The project's copy of the case has the identifier. -/
def Carries (case : TestCase) (id : ℕ) (project : Text) : Prop :=
  ∃ track, case.track? project = some track ∧ track.projectId = id

lemma carries_iff {id : ℕ} {project : Text} : Carries case id project ↔
    ∃ e ∈ case.projects.entries, (e.2.any fun track => track.projectId = id) = true ∧
      e.1 = project := by
  constructor
  · rintro ⟨track, htrack, hid⟩
    exact ⟨(project, some track), track?_eq_some_iff.mp htrack, decide_eq_true hid, rfl⟩
  · rintro ⟨⟨_, track | track⟩, hmem, hany, rfl⟩
    · cases hany
    · exact ⟨track, track?_eq_some_iff.mpr hmem, of_decide_eq_true hany⟩

/-- The project of an identifier is the first one whose copy has it. -/
lemma projectWithId?_eq_some_iff {id : ℕ} {project : Text} :
    case.projectWithId? id = some project ↔
      Carries case id project ∧ ∀ other, Carries case id other → ¬ other < project := by
  rw [TestCase.projectWithId?, Option.map_eq_some_iff]
  simp only [find?_entries_eq_some_iff, carries_iff]
  constructor
  · rintro ⟨e, ⟨hmem, hany, hleast⟩, rfl⟩
    refine ⟨⟨e, hmem, hany, rfl⟩, ?_⟩
    rintro _ ⟨other, hmem', hany', rfl⟩
    exact hleast other hmem' hany'
  · rintro ⟨⟨e, hmem, hany, rfl⟩, hleast⟩
    refine ⟨e, ⟨hmem, hany, fun other hmem' hany' => ?_⟩, rfl⟩
    exact hleast other.1 ⟨other, hmem', hany', rfl⟩

lemma projectWithId?_eq_none_iff {id : ℕ} :
    case.projectWithId? id = none ↔ ∀ project, ¬ Carries case id project := by
  rw [TestCase.projectWithId?, Option.map_eq_none_iff, List.find?_eq_none]
  simp only [carries_iff]
  constructor
  · rintro hnone _ ⟨e, hmem, hany, rfl⟩
    exact hnone e hmem hany
  · intro hnone e hmem hany
    exact hnone e.1 ⟨e, hmem, hany, rfl⟩

lemma track?_eq_none {project : Text} (h : project ∉ case.projectNames) :
    case.track? project = none := by
  cases htrack : case.track? project with
  | none => rfl
  | some track => exact absurd (List.mem_map_of_mem (track?_eq_some_iff.mp htrack)) h

/-! ## Steps -/

lemma setTrack?_of_mem {project : Text} (h : project ∈ case.projectNames) (track : Track) :
    case.setTrack? project track =
      some { case with projects := case.projects.insert project (some track) } :=
  if_pos (contains_eq_true_iff.mpr h)

lemma setTrack?_eq_none_iff {project : Text} {track : Track} :
    case.setTrack? project track = none ↔ project ∉ case.projectNames := by
  have hcontains : case.projects.contains project = true ↔ project ∈ case.projectNames :=
    contains_eq_true_iff
  rw [← hcontains, TestCase.setTrack?]
  split_ifs with h <;> simp [h]

/-- What updates make of a case. -/
structure UpdatedBy (updates : List CaseUpdate) (case after : TestCase) : Prop where
  folder : after.folder = case.folder
  description : after.description = case.description
  prerequisites : after.prerequisites = case.prerequisites
  testData : after.testData = case.testData
  steps : after.steps = case.steps
  projectNames : after.projectNames = case.projectNames
  issued : (after.name, after.globalId) =
    ((updates.filterMap CaseUpdate.issued?).getLast?).getD (case.name, case.globalId)
  track : ∀ project ∈ case.projectNames, after.track? project =
    ((updates.filterMap (CaseUpdate.trackFor? project)).getLast?).or (case.track? project)

lemma UpdatedBy.refl (case : TestCase) : UpdatedBy [] case case :=
  ⟨rfl, rfl, rfl, rfl, rfl, rfl, rfl, fun _ _ => rfl⟩

/-- A track changes nothing but the track of its project, if the case belongs to that project. -/
lemma apply_setTrack (case : TestCase) (project : Text) (track : Track) :
    let after := CaseUpdate.apply case (.setTrack project track)
    after = { case with projects := after.projects } ∧ after.projectNames = case.projectNames ∧
      ∀ other ∈ case.projectNames,
        after.track? other = if other = project then some track else case.track? other := by
  intro after
  by_cases hmem : project ∈ case.projectNames
  · have hafter : after =
        { case with projects := case.projects.insert project (some track) } := by
      show (case.setTrack? project track).getD case = _
      rw [setTrack?_of_mem hmem]
      rfl
    rw [hafter]
    refine ⟨rfl, keys_insert_of_mem hmem _, fun other _ => ?_⟩
    rw [TestCase.track?, get?_insert]
    split_ifs <;> rfl
  · have hafter : after = case := by
      show (case.setTrack? project track).getD case = case
      rw [setTrack?_eq_none_iff.mpr hmem]
      rfl
    rw [hafter]
    refine ⟨rfl, rfl, fun other hother => (if_neg ?_).symm⟩
    rintro rfl
    exact hmem hother

lemma UpdatedBy.step (h : UpdatedBy updates case after) (update : CaseUpdate) :
    UpdatedBy (updates ++ [update]) case (update.apply after) := by
  cases update with
  | assignId name globalId =>
    refine ⟨h.folder, h.description, h.prerequisites, h.testData, h.steps, h.projectNames, ?_,
      fun project hproject => ?_⟩
    · rw [List.filterMap_append]
      exact (congrArg (Option.getD · _) List.getLast?_concat).symm
    · rw [List.filterMap_append]
      exact (h.track project hproject).trans (by simp [CaseUpdate.trackFor?])
  | setTrack project track =>
    obtain ⟨hrest, hnames, htrack⟩ := apply_setTrack after project track
    have hissued : (updates ++ [CaseUpdate.setTrack project track]).filterMap CaseUpdate.issued? =
        updates.filterMap CaseUpdate.issued? := by
      simp [CaseUpdate.issued?]
    generalize CaseUpdate.apply after (.setTrack project track) = after' at hrest hnames htrack ⊢
    rw [hrest] at hnames htrack ⊢
    refine ⟨h.folder, h.description, h.prerequisites, h.testData, h.steps,
      hnames.trans h.projectNames, hissued ▸ h.issued, fun other hother => ?_⟩
    rw [htrack other (h.projectNames ▸ hother), List.filterMap_append, h.track other hother]
    by_cases heq : other = project
    · simp [CaseUpdate.trackFor?, heq]
    · simp [CaseUpdate.trackFor?, heq, Ne.symm heq]

theorem updatedBy_updated (case : TestCase) (updates : List CaseUpdate) :
    UpdatedBy updates case (updated case updates) := by
  induction updates using List.reverseRecOn with
  | nil => exact .refl case
  | append_singleton updates update ih =>
    rw [updated, List.foldl_append]
    exact ih.step update

/-- The name of a case is the one that it started with or was issued by an update. -/
lemma UpdatedBy.name_or_issued (h : UpdatedBy updates case after) :
    after.name = case.name ∨ ∃ globalId, .assignId after.name globalId ∈ updates := by
  have hissued := h.issued
  cases hlast : (updates.filterMap CaseUpdate.issued?).getLast? with
  | none =>
    rw [hlast] at hissued
    exact .inl (congrArg Prod.fst hissued)
  | some issue =>
    rw [hlast] at hissued
    obtain ⟨update, hupdate, hissue⟩ := List.mem_filterMap.mp (List.mem_of_getLast? hlast)
    rw [Option.getD_some] at hissued
    subst hissued
    cases update with
    | assignId name globalId =>
      cases hissue
      exact .inr ⟨_, hupdate⟩
    | setTrack project track => cases hissue

/-! ## Valid cases -/

/-- A valid case stays valid under all updates that issue names which are not blank. -/
theorem validate_updated (hvalid : case.validate config = .ok ())
    (hnames : ∀ name globalId, .assignId name globalId ∈ updates → Text.trim name ≠ []) :
    let after := updated case updates
    after.validate config = .ok () ∧ UpdatedBy updates case after ∧
      (∀ project track, (after.setTrack? project track).isSome = true ↔
        project ∈ case.projectNames) ∧
      (∀ project track, project ∉ case.projectNames →
        CaseUpdate.apply after (.setTrack project track) = after) ∧
      (∀ project, project ∉ case.projectNames → after.track? project = none) ∧
      ∀ id, (∀ project, after.projectWithId? id = some project ↔
          Carries after id project ∧ ∀ other, Carries after id other → ¬ other < project) ∧
        (after.projectWithId? id = none ↔ ∀ project, ¬ Carries after id project) := by
  intro after
  have hupdated : UpdatedBy updates case after := updatedBy_updated case updates
  obtain ⟨hname, hsteps, hprojects, hallowed⟩ := TestCase.validate_eq_ok_iff.mp hvalid
  have hname' : Text.trim after.name ≠ [] := by
    rcases hupdated.name_or_issued with hsame | ⟨globalId, hissued⟩
    · rwa [hsame]
    · exact hnames after.name globalId hissued
  refine ⟨?_, hupdated, fun project track => ?_, fun project track hproject => ?_,
    fun project hproject => ?_, fun id => ⟨fun project => projectWithId?_eq_some_iff,
      projectWithId?_eq_none_iff⟩⟩
  · rw [TestCase.validate_eq_ok_iff, hupdated.steps, hupdated.projectNames]
    exact ⟨hname', hsteps, hprojects, hallowed⟩
  · rw [Option.isSome_iff_ne_none, ne_eq, setTrack?_eq_none_iff, not_not, hupdated.projectNames]
  · rw [← hupdated.projectNames, ← setTrack?_eq_none_iff] at hproject
    rw [CaseUpdate.apply, hproject]
    rfl
  · exact track?_eq_none (hupdated.projectNames ▸ hproject)

def loginCase : TestCase where
  name := "test_NEW_login"
  globalId := "NEW"
  folder := "suite/auth/test_login.py"
  steps := [⟨"Open the page", "The page is shown", []⟩]
  projects := .ofList [("TEAM_A", none), ("MASTER", none)]

def loginConfig : SyncConfig where
  defaultProject := "MASTER"
  projects := ["TEAM_A"]

/-- Two projects share an identifier until one of them gets another, and a third one is unknown. -/
def loginUpdates : List CaseUpdate := [
  .setTrack "TEAM_A" ⟨7, some 1001, 55, none⟩,
  .setTrack "MASTER" ⟨7, none, 1, none⟩,
  .setTrack "TEAM_Z" ⟨7, none, 1, none⟩,
  .assignId "test_gid_42_login" "GID-42",
  .setTrack "MASTER" ⟨8, some 1002, 1, some .inSync⟩]

theorem validate_updated_login :
    loginCase.validate loginConfig = .ok () ∧
      (∀ name globalId, .assignId name globalId ∈ loginUpdates → Text.trim name ≠ []) ∧
      (updated loginCase loginUpdates).validate loginConfig = .ok () ∧
      (updated loginCase loginUpdates).globalId = "GID-42" ∧
      (updated loginCase loginUpdates).projectWithId? 7 = some "TEAM_A" := by
  have hvalid : loginCase.validate loginConfig = .ok () := by rfl
  have hnames (name globalId : Text) (h : .assignId name globalId ∈ loginUpdates) :
      Text.trim name ≠ [] := by
    simp only [loginUpdates, List.mem_cons, reduceCtorEq, false_or, or_false, List.not_mem_nil,
      CaseUpdate.assignId.injEq] at h
    rw [h.1]
    decide
  obtain ⟨hvalid', hupdated, -⟩ := validate_updated hvalid hnames
  refine ⟨hvalid, hnames, hvalid', congrArg Prod.snd hupdated.issued, ?_⟩
  decide

end TestCatalog.Proofs
