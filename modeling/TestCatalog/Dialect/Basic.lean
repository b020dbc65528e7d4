import TestCatalog.Path
import TestCatalog.Text.Lowercase

/-!
# Dialects

Documentation blocks stand in the sources of three kinds of tests. Each kind is a dialect with
marks of its own.
-/

namespace TestCatalog

inductive Dialect where
  /-- Functions whose doc-strings hold the blocks. -/
  | annotatedFunction
  /-- Tables of keywords, where the cases of one section hold the blocks. -/
  | keywordTable
  | featureScenario
deriving DecidableEq

structure Profile where
  name : Text
  extension : Text
  /-- What the line of a case shows. -/
  indicator : Text
  /-- How the header of a case without identifier starts. -/
  addMark : Text
  /-- How the header of a case with identifier starts. -/
  updateMark : Text
  /-- The identifier of a case that has none. -/
  placeholder : Text

namespace Dialect

/-- All dialects, in the order in which extensions are looked up. -/
def all : List Dialect := [annotatedFunction, keywordTable, featureScenario]

def profile : Dialect → Profile
  | annotatedFunction =>
    { name := "annotated-function", extension := "py", indicator := "def "
      addMark := "def test_NEW_", updateMark := "def test_gid_", placeholder := "NEW" }
  | keywordTable =>
    { name := "keyword-table", extension := "robot", indicator := "*** Test Cases ***"
      addMark := "<NEW>", updateMark := "TC-GID", placeholder := "<NEW>" }
  | featureScenario =>
    { name := "feature-scenario", extension := "feature", indicator := "Scenario: "
      addMark := "Scenario: test_NEW", updateMark := "Scenario: test_gid", placeholder := "NEW" }

def name (d : Dialect) : Text :=
  d.profile.name

def extension (d : Dialect) : Text :=
  d.profile.extension

/-- The names under which a dialect is asked for. -/
def aliases : Dialect → List Text
  | annotatedFunction => ["pytest", "xframework", "py", "annotated-function"]
  | keywordTable => ["robot", "keyword-table"]
  | featureScenario => ["gherkin", "feature", "feature-scenario"]

/-- The dialect asked for by name, whatever its case and the blanks around it. -/
def ofName? (name : Text) : Option Dialect :=
  let wanted := Text.lowercase (Text.trim name)
  all.find? fun d => d.aliases.contains wanted

def unknownMessage (name : Text) : Text :=
  "Unknown dialect '" ++ name ++ "' (expected one of: pytest, robot, gherkin)"

/-- The dialect of a file extension, whatever the case of its ASCII letters. -/
def ofExtension? (extension : Text) : Option Dialect :=
  all.find? fun d => Text.asciiLowercase d.extension = Text.asciiLowercase extension

/-- Whether the file's extension is the dialect's, whatever the case of its ASCII letters. -/
def matchesPath (d : Dialect) (path : Path) : Bool :=
  path.extension?.any fun extension =>
    Text.asciiLowercase extension = Text.asciiLowercase d.extension

end Dialect

end TestCatalog
