import TestCatalog.Case.Basic
import TestCatalog.Dialect.Opening
import TestCatalog.Document.Projects
import TestCatalog.Document.Steps

/-!
# Case bodies

The body of a test case is what its documentation says: three sections, the steps and the projects.
Reading a body reports each stage that it passes.
-/

namespace TestCatalog

/-- Where the reading of a case stands. -/
inductive Stage where
  | scanning
  | caseHeaderFound
  | descriptionRead
  | prerequisitesRead
  | testDataRead
  | stepsRead
  | projectsRead
  | emit
deriving DecidableEq

def Stage.name : Stage → Text
  | scanning => "scanning"
  | caseHeaderFound => "case_header_found"
  | descriptionRead => "description_read"
  | prerequisitesRead => "prerequisites_read"
  | testDataRead => "test_data_read"
  | stepsRead => "steps_read"
  | projectsRead => "projects_read"
  | emit => "emit"

/-- The report that a case passes from one stage to another. -/
def Stage.transition (case : Text) (origin target : Stage) : Event :=
  (Event.debug "Assembly stage transition").withDetails
    [("case", case), ("from", origin.name), ("to", target.name)]

/-- The contents of a case, as its author wrote them. -/
structure CaseBody where
  description : List Item
  prerequisites : List Item
  testData : List Item
  steps : List Triad
  projects : List Text
  warning : Option AssemblyWarning

namespace CaseBody

def read (config : SyncConfig) (d : Dialect) (header name : Text) : Reader CaseBody := do
  d.expectOpening header name
  let description ← Section.description.read name
  Reader.note (Stage.transition name .caseHeaderFound .descriptionRead)
  let prerequisites ← Section.prerequisites.read name
  Reader.note (Stage.transition name .descriptionRead .prerequisitesRead)
  let testData ← Section.testData.read name
  Reader.note (Stage.transition name .prerequisitesRead .testDataRead)
  let steps ← Steps.read name
  Reader.note (Stage.transition name .testDataRead .stepsRead)
  let (projects, warning) ← Projects.read config d name
  Reader.noteAll [Stage.transition name .stepsRead .projectsRead,
    Stage.transition name .projectsRead .emit, Stage.transition name .emit .scanning]
  pure { description, prerequisites, testData, steps, projects, warning }

theorem forward_read (config : SyncConfig) (d : Dialect) (header name : Text) :
    (read config d header name).Forward :=
  Reader.forward_bind (d.forward_expectOpening header name) fun _ =>
    Reader.forward_bind (Section.forward_read _ _) fun _ =>
    Reader.forward_bind (Reader.forward_note _) fun _ =>
    Reader.forward_bind (Section.forward_read _ _) fun _ =>
    Reader.forward_bind (Reader.forward_note _) fun _ =>
    Reader.forward_bind (Section.forward_read _ _) fun _ =>
    Reader.forward_bind (Reader.forward_note _) fun _ =>
    Reader.forward_bind (Steps.forward_read _) fun _ =>
    Reader.forward_bind (Reader.forward_note _) fun _ =>
    Reader.forward_bind (Projects.forward_read _ _ _) fun _ =>
    Reader.forward_bind (Reader.forward_noteAll _) fun _ => Reader.forward_pure _

def step (t : Triad) : Step :=
  ⟨Steps.render t.action, Steps.render t.expected, Steps.render t.notes⟩

/-- The listed projects, none of them tracked yet. The default project is added before them, but not
when a keyword table lists it alone. -/
def scope (config : SyncConfig) (d : Dialect) (projects : List Text) :
    SortedMap Text (Option Track) :=
  let start := if Projects.OnlyDefault config d projects then ∅ else
    SortedMap.insert ∅ config.defaultProject none
  projects.foldl (fun scope project => scope.insert project none) start

def toCase (body : CaseBody) (config : SyncConfig) (d : Dialect) (name globalId folder : Text) :
    TestCase where
  name := name
  globalId := globalId
  folder := folder
  description := Section.description.render body.description
  prerequisites := Section.prerequisites.render body.prerequisites
  testData := Section.testData.render body.testData
  steps := body.steps.map step
  projects := scope config d body.projects

end CaseBody

end TestCatalog
