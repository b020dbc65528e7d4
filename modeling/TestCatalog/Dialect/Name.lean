import TestCatalog.Dialect.Basic

/-!
# Case names

The name that a source line gives to a test case, the identifier that a name carries, and the name
that a case takes when an identifier is issued.
-/

namespace TestCatalog.Dialect

/-! ## Names on lines -/

/-- The line up to the first `#` outside quotes; `quote` is the quote that is open. -/
def codeFrom : (quote : Option Char) → Text → Text
  | _, [] => []
  | some q, c :: t => c :: codeFrom (if c = q then none else some q) t
  | none, c :: t =>
    if c = '#' then []
    else c :: codeFrom (if c = '\'' ∨ c = '"' then some c else none) t

def codePart (line : Text) : Text :=
  codeFrom none line

/-- The text without blanks at its ends, unless nothing is left. -/
def trimmed? (t : Text) : Option Text :=
  let t := Text.trim t
  if t = [] then none else some t

/-- The name of the case that the line declares, if it declares one: what stands between `def ` and
a parenthesis, the whole line, or what follows `Scenario: `. -/
def nameOnLine? : Dialect → Text → Option Text
  | annotatedFunction, line =>
    (Text.after? annotatedFunction.profile.indicator (codePart line)).bind fun rest =>
      trimmed? (rest.takeWhile (· ≠ '('))
  | keywordTable, line => trimmed? line
  | featureScenario, line =>
    (Text.after? featureScenario.profile.indicator line).bind trimmed?

/-- The name of the case that a header starts. -/
def nameOfHeader (d : Dialect) (header : Text) : Text :=
  (d.nameOnLine? header).getD (Text.trim header)

/-! ## Identifiers in names -/

/-- The identifier that the name of a case carries. -/
def idOfName : Dialect → Text → Text
  | annotatedFunction, name | featureScenario, name =>
    let rest := (Text.stripStart? "test_gid_" name).getD name
    "GID-" ++ rest.takeWhile fun c => c ≠ '_' && !Text.isBlank c
  | keywordTable, name =>
    let rest := (Text.after? "TC-" name).getD name
    Text.trim (rest.takeWhile (· ≠ ':'))

/-- The name that a case takes when it is issued an identifier. -/
def assignedName : Dialect → (name globalId : Text) → Text
  | annotatedFunction, name, globalId | featureScenario, name, globalId =>
    let token := (Text.lowercase globalId).map fun c => if c = '-' then '_' else c
    Text.replaceFirst "test_NEW" ("test_" ++ token) name
  | keywordTable, name, globalId =>
    Text.replaceFirst keywordTable.profile.placeholder ("TC-" ++ globalId) name

end TestCatalog.Dialect
