import TestCatalog.Config.Sync
import TestCatalog.SortedMap

/-!
# Test cases

A test case is a documented test procedure: its name and identifier, where it comes from, its
sections and steps as the catalogue shows them, and the projects it belongs to.
-/

namespace TestCatalog

structure Step where
  description : Text
  expectedResult : Text
  notes : Text
deriving DecidableEq

/-- Whether a project's copy of a case is that of the default project. -/
inductive SyncStatus where
  | inSync
  | outOfSync
deriving DecidableEq

/-- Where a project keeps its copy of a case. -/
structure Track where
  projectId : Nat
  caseId : Option Nat
  parentId : Nat
  status : Option SyncStatus := none
deriving DecidableEq

structure TestCase where
  name : Text
  globalId : Text
  folder : Text
  description : Text := []
  prerequisites : Text := []
  testData : Text := []
  steps : List Step := []
  projects : SortedMap Text (Option Track) := {}
deriving DecidableEq

/-- Why a test case is not ready for the catalogue. -/
inductive CaseError where
  | emptyName
  | noSteps (case : Text)
  | noProjects (case : Text)
  | unknownProject (case project : Text)
deriving DecidableEq

namespace CaseError

def message : CaseError → Text
  | emptyName => "Test case has an empty name"
  | noSteps case => "Test case " ++ case ++ " has no steps"
  | noProjects case => "Test case " ++ case ++ " is not scoped to any project"
  | unknownProject case project =>
    "Test case " ++ case ++ " lists project '" ++ project ++ "' outside the sync configuration"

def code (_ : CaseError) : Code :=
  .invalidCase

end CaseError

namespace TestCase

/-! ## Changes after assembly -/

/-- Takes the name and the identifier that the catalogue issued. -/
def assignId (case : TestCase) (name globalId : Text) : TestCase :=
  { case with name, globalId }

def setTrack? (case : TestCase) (project : Text) (track : Track) : Option TestCase :=
  if case.projects.contains project then
    some { case with projects := case.projects.insert project (some track) }
  else none

/-! ## Queries -/

def projectNames (case : TestCase) : List Text :=
  case.projects.keys

def track? (case : TestCase) (project : Text) : Option Track :=
  (case.projects.get? project).join

/-- The first project whose track has the identifier. -/
def projectWithId? (case : TestCase) (id : Nat) : Option Text :=
  (case.projects.entries.find? fun (_, track) => track.any fun t => t.projectId = id).map Prod.fst

/-- A case has a name, steps and projects, all of them allowed. -/
def validate (case : TestCase) (config : SyncConfig) : Except CaseError Unit :=
  if Text.trim case.name = [] then .error .emptyName
  else if case.steps = [] then .error (.noSteps case.name)
  else if case.projects.isEmpty then .error (.noProjects case.name)
  else
    match case.projectNames.find? fun project => !config.allows project with
    | some project => .error (.unknownProject case.name project)
    | none => .ok ()

theorem validate_eq_ok_iff {case : TestCase} {config : SyncConfig} :
    case.validate config = .ok () ↔ Text.trim case.name ≠ [] ∧ case.steps ≠ [] ∧
      case.projectNames ≠ [] ∧ ∀ project ∈ case.projectNames, config.allows project = true := by
  have isEmpty_iff : case.projects.isEmpty = true ↔ case.projectNames = [] := by
    simp [SortedMap.isEmpty, projectNames, SortedMap.keys]
  rw [validate]
  split
  next name_blank => exact iff_of_false nofun fun h => h.1 name_blank
  split
  next no_steps => exact iff_of_false nofun fun h => h.2.1 no_steps
  split
  next no_projects => exact iff_of_false nofun fun h => h.2.2.1 (isEmpty_iff.1 no_projects)
  next name_ne steps_ne projects_ne =>
    split
    next project found =>
      refine iff_of_false nofun fun h => ?_
      have refused : (!config.allows project) = true :=
        List.find?_some (p := fun project => !config.allows project) found
      rw [h.2.2.2 project (List.mem_of_find?_eq_some found)] at refused
      cases refused
    next found =>
      refine iff_of_true rfl ⟨name_ne, steps_ne, fun h => projects_ne (isEmpty_iff.2 h), ?_⟩
      simpa using found

/-! ## Written form -/

def rule : Text :=
  List.replicate 80 '*'

def renderStep (index : Nat) (step : Step) : Text :=
  "  " ++ Text.ofNat (index + 1) ++ ") " ++ step.description ++ "\n" ++
    "      ER: " ++ step.expectedResult ++ "\n" ++ "      Notes: " ++ step.notes ++ "\n"

def renderProject (project : Text) : Option Track → Text
  | some track =>
    let id : Text := (track.caseId.map Text.ofNat).getD "none"
    project ++ " (id: " ++ id ++ ") (parent_id: " ++ Text.ofNat track.parentId ++ ")\n"
  | none => project ++ " (NO TEST CASE IN THIS PROJECT)\n"

def render (case : TestCase) : Text :=
  let compact (part : Text) : Text := Text.replaceAll "\n\n" "\n" (Text.trim part)
  rule ++ "\n" ++ case.name ++ "\n" ++
    "---Global ID---\n" ++ case.globalId ++ "\n" ++
    "---Folder---\n" ++ case.folder ++ "\n" ++
    "---Description---\n" ++ Text.trim case.description ++ "\n" ++
    "---Prerequisites---\n" ++ compact case.prerequisites ++ "\n" ++
    "---Test Data---\n" ++ compact case.testData ++ "\n" ++
    "---Steps---\n" ++ (case.steps.mapIdx renderStep).flatten ++
    "---Projects---\n" ++
    case.projects.entries.flatMap (fun (project, track) => renderProject project track) ++ rule

end TestCase

end TestCatalog
