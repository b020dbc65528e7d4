import TestCatalog.Assembly.Basic
import TestCatalog.Proofs.Lines

/-!
# Drafts of test cases

A draft is what the author of a test case has in mind. This file writes drafts as documentation
blocks, says which drafts are well formed, and gives the case that a draft stands for.
-/

namespace TestCatalog.Proofs

structure Draft where
  name : Text
  description : List Item
  prerequisites : List Item
  testData : List Item
  steps : List Triad
  projects : List Text
deriving DecidableEq

/-! ## Written form -/

def itemLines : Item → List Text
  | .line text => [text]
  | .table rows => Table.opener :: rows ++ [Table.closer]

/-- The lines of a section: its header, its items, and the blank line that ends it. -/
def sectionLines (s : Section) (items : List Item) : List Text :=
  (s.label ++ ":") :: items.flatMap itemLines ++ [[]]

/-- The lines of a step's element: its first line behind the mark, and the dash lines. -/
def elementLines (mark : Text) (lines : List Text) : List Text :=
  (mark ++ " " ++ lines.headD []) :: lines.tail

def triadLines (count : ℕ) (t : Triad) : List Text :=
  elementLines (StepElement.action.mark count) t.action ++
    elementLines (StepElement.expected.mark count) t.expected ++
    elementLines (StepElement.notes.mark count) t.notes

def stepLines : (count : ℕ) → List Triad → List Text
  | _, [] => []
  | count, t :: ts => triadLines count t ++ stepLines (count + 1) ts

def projectsLine (projects : List Text) : Text :=
  Projects.mark ++ " " ++ Text.join ", " projects

/-- The line that declares a case of the given name. -/
def headerLine : Dialect → (name : Text) → Text
  | .annotatedFunction, name => "def " ++ name ++ "():"
  | .keywordTable, name => name
  | .featureScenario, name => "Scenario: " ++ name

def openerLine : Dialect → Text
  | .annotatedFunction | .featureScenario => Dialect.tripleQuote
  | .keywordTable => Dialect.documentationMark

def closerLines : Dialect → List Text
  | .annotatedFunction | .featureScenario => [Dialect.tripleQuote]
  | .keywordTable => []

namespace Draft

/-- The lines below the header, up to the projects line. -/
def bodyLines (d : Dialect) (draft : Draft) : List Text :=
  openerLine d ::
    (sectionLines .description draft.description ++
      (sectionLines .prerequisites draft.prerequisites ++
      (sectionLines .testData draft.testData ++
      ((Steps.label ++ ":") :: stepLines 1 draft.steps ++ [[]] ++
      [projectsLine draft.projects]))))

/-- The lines of a draft, with a blank line behind them. -/
def lines (d : Dialect) (draft : Draft) : List Text :=
  headerLine d draft.name :: draft.bodyLines d ++ closerLines d ++ [[]]

end Draft

/-- The block that holds the drafts one after another. -/
def draftBlock (d : Dialect) (drafts : List Draft) : Text :=
  terminated (drafts.flatMap (Draft.lines d))

/-! ## Well-formed drafts -/

/-- A table has rows, all with as many cells as the first, and a reader of its lines neither stops
before its closer nor takes a row for it. -/
structure IsTable (rows : List Text) : Prop where
  ne_nil : rows ≠ []
  row : ∀ row ∈ rows, Text.trim row ≠ [] ∧ Text.trim row ≠ Table.closer
  even : ∀ row ∈ rows, (Table.cells row).length = (Table.cells (rows.headD [])).length

instance (rows : List Text) : Decidable (IsTable rows) :=
  decidable_of_iff (rows ≠ [] ∧ (∀ row ∈ rows, Text.trim row ≠ [] ∧ Text.trim row ≠ Table.closer) ∧
      ∀ row ∈ rows, (Table.cells row).length = (Table.cells (rows.headD [])).length)
    ⟨fun ⟨h₁, h₂, h₃⟩ => ⟨h₁, h₂, h₃⟩, fun ⟨h₁, h₂, h₃⟩ => ⟨h₁, h₂, h₃⟩⟩

/-- An item of free text: a line that is not blank and opens no table, or a table. -/
def IsFree : Item → Prop
  | .line text => Text.trim text ≠ [] ∧ Text.trim text ≠ Table.opener
  | .table rows => IsTable rows

instance : (item : Item) → Decidable (IsFree item)
  | .line _ => inferInstanceAs (Decidable (_ ∧ _))
  | .table rows => inferInstanceAs (Decidable (IsTable rows))

/-- Items of a list: tables, dash lines, and lines that are numbered from `count` on. -/
def IsListing : (count : ℕ) → List Item → Prop
  | _, [] => True
  | count, .line text :: items =>
    Text.startsWith (Section.numberMark count) (Text.trim text) ∧ IsListing (count + 1) items ∨
      Text.startsWith "-" (Text.trim text) ∧ IsListing count items
  | count, .table rows :: items => IsTable rows ∧ IsListing count items

instance decidableIsListing : (count : ℕ) → (items : List Item) → Decidable (IsListing count items)
  | _, [] => inferInstanceAs (Decidable True)
  | count, .line _ :: items =>
    have := decidableIsListing (count + 1) items
    have := decidableIsListing count items
    inferInstanceAs (Decidable (_ ∧ _ ∨ _ ∧ _))
  | count, .table rows :: items =>
    have := decidableIsListing count items
    inferInstanceAs (Decidable (IsTable rows ∧ _))

/-- An element of a step: one line and any number of dash lines. -/
def IsElement (lines : List Text) : Prop :=
  lines ≠ [] ∧ ∀ line ∈ lines.tail, Text.startsWith "-" (Text.trim line)

instance (lines : List Text) : Decidable (IsElement lines) :=
  inferInstanceAs (Decidable (_ ∧ _))

/-- A name for the dialect: its header carries one of the dialect's marks, and a function's name
has no character that would end it or start a comment or a quotation. -/
structure IsName (d : Dialect) (name : Text) : Prop where
  mark : Text.startsWith d.profile.addMark (headerLine d name) ∨
    Text.startsWith d.profile.updateMark (headerLine d name)
  plain : d = .annotatedFunction → ∀ c ∈ name, c ∉ ['(', ')', '#', '\'', '"']

/-- The document of a draft can be read up to its projects. -/
structure Draft.LaidOut (d : Dialect) (draft : Draft) : Prop where
  name : IsName d draft.name
  description : ∀ item ∈ draft.description, IsFree item
  prerequisites : IsListing 1 draft.prerequisites
  testData : IsListing 1 draft.testData
  steps_ne_nil : draft.steps ≠ []
  step : ∀ t ∈ draft.steps, IsElement t.action ∧ IsElement t.expected ∧ IsElement t.notes
  projects_ne_nil : draft.projects ≠ []
  projects : ∀ project ∈ draft.projects, ',' ∉ project
  oneLine : ∀ line ∈ draft.lines d, '\n' ∉ line

/-- Well-formed drafts are laid out and list projects of the configuration. -/
structure Draft.WellFormed (config : SyncConfig) (d : Dialect) (draft : Draft) : Prop
    extends draft.LaidOut d where
  known : ∀ project ∈ draft.projects,
    Text.trim project ≠ Projects.noProject ∧ config.allows (Text.trim project)

/-! ## The case of a draft -/

def trimmedItem : Item → Item
  | .line text => .line (Text.trim text)
  | .table rows => .table rows

def trimmedTriad (t : Triad) : Triad :=
  ⟨t.action.map Text.trim, t.expected.map Text.trim, t.notes.map Text.trim⟩

namespace Draft

/-- The draft without blanks at the ends of its name, lines and projects. -/
def trimmed (draft : Draft) : Draft where
  name := Text.trim draft.name
  description := draft.description.map trimmedItem
  prerequisites := draft.prerequisites.map trimmedItem
  testData := draft.testData.map trimmedItem
  steps := draft.steps.map trimmedTriad
  projects := draft.projects.map Text.trim

/-- Whether the draft has an identifier yet. -/
def kind (d : Dialect) (draft : Draft) : CaseKind :=
  if Text.startsWith d.profile.addMark (headerLine d draft.name) then .add else .update

/-- The projects of the draft and the default one, none of them tracked. -/
def scope (config : SyncConfig) (draft : Draft) : SortedMap Text (Option Track) :=
  .ofList ((config.defaultProject :: draft.projects).map fun project => (project, none))

/-- The case that the draft stands for. -/
def case (a : Assembler) (draft : Draft) : TestCase where
  name := draft.name
  globalId := a.globalId (draft.kind a.dialect) draft.name
  folder := a.folder
  description := Section.description.render draft.description
  prerequisites := Section.prerequisites.render draft.prerequisites
  testData := Section.testData.render draft.testData
  steps := draft.steps.map CaseBody.step
  projects := draft.scope a.config

def parsed (a : Assembler) (draft : Draft) : ParsedCases :=
  .single (draft.kind a.dialect) (draft.case a)
    (Projects.warning? a.config a.dialect draft.name draft.projects)

end Draft

end TestCatalog.Proofs
