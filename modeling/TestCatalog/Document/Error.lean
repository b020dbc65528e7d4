import TestCatalog.Diagnostics.Code

/-!
# Grammar errors

Why a documentation block is rejected. Every error ends the reading of its block, and all but one
name the test case they are about.
-/

namespace TestCatalog

inductive GrammarError where
  /-- A section does not start where it should; `first` marks the section after the case header. -/
  | missingSectionHeader (label case : Text) (first : Bool)
  /-- A line is no dash line, no table opener and not the line with number `expected`. -/
  | malformedSectionLine (expected : Nat) (label case : Text)
  | unterminatedTable (label case : Text)
  | emptyTable (case : Text)
  /-- The row with number `index`, counted from 1, has `found` cells. -/
  | unevenTable (row : Text) (expected found index : Nat) (case : Text)
  | stepNumbering (expected : Nat) (case : Text)
  | stepLabel (label case : Text)
  | missingProjectsLine (case : Text)
  | unknownProject (project case : Text)
  | emptyProjectScope (case : Text)
  | docStringStart (case : Text)
  | missingDocumentationMarker (case : Text)
  | multipleSectionMarkers
deriving DecidableEq

namespace GrammarError

/-- The hint on a missing section depends on where the section should start. -/
def hint (first : Bool) : Text :=
  if first then
    " (if this section is present, check that it is the first line in the doc-string)"
  else
    " or the previous section data (if this section is present, check that it is directly " ++
      "2 lines below the last section)"

def message : GrammarError → Text
  | missingSectionHeader label case first =>
    "Expecting '" ++ label ++ "' line in test case " ++ case ++ hint first
  | malformedSectionLine expected label case =>
    "Expecting either '" ++ Text.ofNat expected ++ ")', another dash '-', or '*begin table*' " ++
      "in the " ++ label ++ " section in " ++ case
  | unterminatedTable label case =>
    "Expecting '*end table*' in the " ++ label ++ " section in " ++ case
  | emptyTable case => "No rows provided in the table entered in " ++ case
  | unevenTable row expected found index case =>
    "Table row: '" ++ row ++ "' does not have the expected amount of columns:" ++
      Text.ofNat expected ++ " as the rest of the table in " ++ case ++ " (row " ++
      Text.ofNat index ++ " has " ++ Text.ofNat found ++ ")"
  | stepNumbering expected case =>
    "Expecting '" ++ Text.ofNat expected ++ ")' line under 'Steps' in test case " ++ case
  | stepLabel label case =>
    "Expecting '" ++ label ++ ":' line under 'Steps' in test case " ++ case
  | missingProjectsLine case => "Expecting 'Projects:' line in test case " ++ case
  | unknownProject project case =>
    "'Projects:' line has a project '" ++ project ++ "' that is not in the list of acceptable " ++
      "projects (reference the project list in the sync configuration) : " ++ case
  | emptyProjectScope case =>
    "'Projects:' line in test case needs at least one project: " ++ case
  | docStringStart case =>
    "Expecting immediate documentation start -\"\"\"- coming after the test case name in " ++
      "test case " ++ case
  | missingDocumentationMarker case =>
    "Expecting '[Documentation]' line under test case " ++ case
  | multipleSectionMarkers =>
    "There are too many test case sections in this file (make sure there are no commented out " ++
      "sections that contain the string '*** Test Cases ***')"

def code : GrammarError → Code
  | missingSectionHeader .. => .missingSectionHeader
  | malformedSectionLine .. => .malformedSectionLine
  | unterminatedTable .. => .unterminatedTable
  | emptyTable .. => .emptyTable
  | unevenTable .. => .unevenTable
  | stepNumbering .. => .stepNumbering
  | stepLabel .. => .stepLabel
  | missingProjectsLine .. => .missingProjectsLine
  | unknownProject .. => .unknownProject
  | emptyProjectScope .. => .emptyProjectScope
  | docStringStart .. => .docStringStart
  | missingDocumentationMarker .. => .missingDocumentationMarker
  | multipleSectionMarkers => .multipleSectionMarkers

def case? : GrammarError → Option Text
  | missingSectionHeader _ case _ | malformedSectionLine _ _ case | unterminatedTable _ case
  | emptyTable case | unevenTable _ _ _ _ case | stepNumbering _ case | stepLabel _ case
  | missingProjectsLine case | unknownProject _ case | emptyProjectScope case
  | docStringStart case | missingDocumentationMarker case => some case
  | multipleSectionMarkers => none

end GrammarError

end TestCatalog
