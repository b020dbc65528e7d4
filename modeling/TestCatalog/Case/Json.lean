import TestCatalog.Case.Basic
import TestCatalog.Json

/-!
# Test cases as JSON

The payload form of a test case and its reader.
-/

namespace TestCatalog

/-- An absent value is null. -/
def Json.ofOption {α : Type} (encode : α → Json) : Option α → Json
  | some a => encode a
  | none => .null

namespace Step

def toJson (step : Step) : Json :=
  .object [("description", .string step.description),
    ("expected_result", .string step.expectedResult), ("notes", .string step.notes)]

def ofJson? (json : Json) : Option Step := do
  match ← json.toRecord? [("description", false), ("expected_result", false), ("notes", false)] with
  | [description, expectedResult, notes] =>
    return ⟨← description.toText?, ← expectedResult.toText?, ← notes.toText?⟩
  | _ => none

end Step

namespace SyncStatus

def name : SyncStatus → Text
  | inSync => "InSync"
  | outOfSync => "OutOfSync"

def toJson (status : SyncStatus) : Json :=
  .string status.name

def ofName? (name : Text) : Option SyncStatus :=
  [inSync, outOfSync].find? fun status => status.name = name

/-- A status is its name, alone or as the only key of an object with a null value. -/
def ofJson? : Json → Option SyncStatus
  | .string name => ofName? name
  | .object [(name, .null)] => ofName? name
  | _ => none

end SyncStatus

namespace Track

def toJson (track : Track) : Json :=
  .object [("project_id", .natural track.projectId),
    ("test_case_id", .ofOption .natural track.caseId), ("parent_id", .natural track.parentId),
    ("sync_status", .ofOption SyncStatus.toJson track.status)]

def ofJson? (json : Json) : Option Track := do
  match ← json.toRecord? [("project_id", false), ("test_case_id", true), ("parent_id", false),
      ("sync_status", true)] with
  | [projectId, caseId, parentId, status] =>
    return ⟨← projectId.toWord?, ← caseId.toOption? Json.toWord?, ← parentId.toWord?,
      ← status.toOption? SyncStatus.ofJson?⟩
  | _ => none

end Track

namespace TestCase

def projectsToJson (projects : SortedMap Text (Option Track)) : Json :=
  .object (projects.entries.map fun (project, track) => (project, .ofOption Track.toJson track))

def projectsOfJson? : Json → Option (SortedMap Text (Option Track))
  | .object fields => do
    let entries ← fields.mapM fun (project, track) => do
      return (project, ← track.toOption? Track.ofJson?)
    return .ofList entries
  | _ => none

def toJson (case : TestCase) : Json :=
  .object [("name", .string case.name), ("global_id", .string case.globalId),
    ("parent_folder_path", .string case.folder), ("description", .string case.description),
    ("prerequisites", .string case.prerequisites), ("test_data", .string case.testData),
    ("steps", .array (case.steps.map Step.toJson)), ("projects", projectsToJson case.projects)]

def ofJson? (json : Json) : Option TestCase := do
  match ← json.toRecord? [("name", false), ("global_id", false), ("parent_folder_path", false),
      ("description", false), ("prerequisites", false), ("test_data", false), ("steps", false),
      ("projects", false)] with
  | [name, globalId, folder, description, prerequisites, testData, steps, projects] =>
    return {
      name := ← name.toText?
      globalId := ← globalId.toText?
      folder := ← folder.toText?
      description := ← description.toText?
      prerequisites := ← prerequisites.toText?
      testData := ← testData.toText?
      steps := ← steps.toList? Step.ofJson?
      projects := ← projectsOfJson? projects }
  | _ => none

end TestCase

end TestCatalog
