import TestCatalog.Dialect.Basic
import TestCatalog.Document.Error

/-!
# Filtered blocks

Before a source is read, its lines are trimmed, cut down to those that can hold documentation, and
joined where a backslash continues a line.
-/

namespace TestCatalog.Dialect

/-! ## Continued lines -/

/-- A line that is still growing, held backwards, so that it grows and is trimmed at its front. -/
abbrev Growing := List Char

def grow (line : Growing) (more : Text) : Growing :=
  more.reverse ++ line

def isContinued (line : Growing) : Bool :=
  line.head? = some '\\'

/-- A continued line without its backslashes and the blanks before them. -/
def continuedHead (line : Growing) : Growing :=
  (line.dropWhile (· = '\\')).dropWhile Text.isBlank

/-- Joins the lines that follow; `head` is a line that waits for its continuation, and `joined`
holds the lines that are complete, last first. -/
def joinFrom (clean : Text → Text) (joined : List Text) (head : Option Growing) :
    List Text → List Text
  | [] =>
    match head with
    | some head => ((grow head " ").reverse :: joined).reverse
    | none => joined.reverse
  | raw :: rest =>
    let line :=
      match head with
      | some head => grow (grow head " ") (clean raw)
      | none => grow [] (clean raw)
    if isContinued line then joinFrom clean joined (some (continuedHead line)) rest
    else joinFrom clean (line.reverse :: joined) none rest

/-- The lines, each cleaned, where a line that ends in a backslash goes on with the next one after
one space. -/
def joinContinued (clean : Text → Text) (lines : List Text) : List Text :=
  joinFrom clean [] none lines

/-! ## Filters -/

/-- A line of a keyword table without the mark that continues its cell. -/
def dropContinuationMark (line : Text) : Text :=
  let line := Text.trim line
  match Text.stripStart? "..." line with
  | some rest => Text.trim rest
  | none => line

/-- The lines below the marker of the test case section, up to the next section. -/
def caseSection (lines : List Text) : List Text :=
  let fromMarker := lines.dropWhile fun line => Text.trim line ≠ keywordTable.profile.indicator
  fromMarker.tail.takeWhile fun line => !Text.startsWith "***" line

/-- The block of a source: the lines that can hold documentation. -/
def filter : Dialect → Text → Except GrammarError Text
  | annotatedFunction, source =>
    .ok (Text.join "\n" (joinContinued Text.trim (Text.lines source)))
  | keywordTable, source =>
    if 1 < Text.count keywordTable.profile.indicator source then .error .multipleSectionMarkers
    else
      .ok (Text.join "\n" (joinContinued dropContinuationMark (caseSection (Text.lines source))))
  | featureScenario, source => .ok (Text.join "\n" ((Text.lines source).map Text.trim))

end TestCatalog.Dialect
