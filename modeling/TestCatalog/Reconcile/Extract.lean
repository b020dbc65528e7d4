import TestCatalog.Diagnostics.Journal
import TestCatalog.Dialect.Name

/-!
# Identifiers of executed tests

An execution knows the names of its tests. A name that was issued an identifier carries it, behind
a start that depends on the framework.
-/

namespace TestCatalog

inductive Framework where
  | pytest
  | robot
deriving DecidableEq

inductive ExtractError where
  | invalidNames (framework : Framework) (names : List Text)
  | unsupportedFramework (name : Text)
deriving DecidableEq

namespace Framework

def name : Framework → Text
  | pytest => "pytest"
  | robot => "robot"

/-- How the names that carry an identifier start. -/
def idStart : Framework → Text
  | pytest => "test_gid_"
  | robot => "TC-GID-"

def dialect : Framework → Dialect
  | pytest => .annotatedFunction
  | robot => .keywordTable

def ofName? (name : Text) : Except ExtractError Framework :=
  match [pytest, robot].find? fun f => f.name = Text.trim name with
  | some f => .ok f
  | none => .error (.unsupportedFramework (Text.trim name))

def idOfName? (f : Framework) (name : Text) : Option Text :=
  if Text.startsWith f.idStart name then some (f.dialect.idOfName name) else none

end Framework

namespace ExtractError

def message : ExtractError → Text
  | invalidNames framework names =>
    "Error in test case names. Expecting '" ++ framework.idStart ++ "' in the following " ++
      framework.name ++ " test case name: " ++ Text.join ", " names
  | unsupportedFramework name =>
    "Unsupported framework '" ++ name ++ "'. Please enter one of the valid test case types: " ++
      "pytest, robot"

def code : ExtractError → Code
  | invalidNames .. => .invalidExecutedNames
  | unsupportedFramework .. => .unsupportedFramework

end ExtractError

namespace Framework

/-- The identifiers of the names in order. A name without one stands for itself where the names
are only compared, and is an error otherwise. -/
def idsOfNames (f : Framework) (compareOnly : Bool) (names : List Text) :
    Except ExtractError (List Text) :=
  let invalid := names.filter fun name => (f.idOfName? name).isNone && !compareOnly
  if invalid = [] then .ok (names.map fun name => (f.idOfName? name).getD name)
  else .error (.invalidNames f invalid)

def extract (f : Framework) (compareOnly : Bool) (names : List Text) :
    Logged (Except ExtractError (List Text)) :=
  match f.idsOfNames compareOnly names with
  | .ok ids => pure (.ok ids)
  | .error e =>
    { value := .error e
      journal := [.report ((Event.error e.code e.message).withDetail ("framework", f.name))] }

end Framework

end TestCatalog
