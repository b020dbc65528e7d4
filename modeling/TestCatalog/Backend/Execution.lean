import TestCatalog.Text.Basic

/-!
# Execution results

One executed test, with the message that the backend records for it.
-/

namespace TestCatalog

inductive ExecutionStatus where
  | passed
  | failed
  | errored
deriving DecidableEq

namespace ExecutionStatus

def name : ExecutionStatus → Text
  | passed => "Passed"
  | failed => "Failed"
  | errored => "Errored"

/-- The status that the backend records: errors count as failures. -/
def recorded : ExecutionStatus → Text
  | passed => "PASSED"
  | failed | errored => "FAILED"

end ExecutionStatus

structure ExecutionResult where
  name : Text
  globalId : Option Text := none
  status : ExecutionStatus
  milliseconds : Nat
  message : Text
deriving DecidableEq

namespace ExecutionResult

def testedFor (outcome plan version : Text) : Text :=
  outcome ++ ". Tested for test plan '" ++ plan ++ "' on software version '" ++ version ++ "'. "

def passed (name : Text) (milliseconds : Nat) (plan version : Text) : ExecutionResult :=
  { name, milliseconds, status := .passed, message := testedFor "Passed" plan version }

def failed (name : Text) (milliseconds : Nat) (plan version reason : Text) : ExecutionResult :=
  { name, milliseconds, status := .failed
    message := testedFor "Failed" plan version ++
      "\nTest case failed with the following reason: " ++ reason }

def errored (name : Text) (milliseconds : Nat) (plan version reason : Text) : ExecutionResult :=
  { name, milliseconds, status := .errored
    message := testedFor "Failed" plan version ++
      "\nTest case ran into an error with the following reason: " ++ reason }

def withGlobalId (r : ExecutionResult) (globalId : Text) : ExecutionResult :=
  { r with globalId := some globalId }

/-- Appends a comment that `user` left for the whole run. -/
def addComment (r : ExecutionResult) (user comment : Text) : ExecutionResult :=
  { r with
    message := r.message ++ "\n\nTest case executer '" ++ user ++
      "' has left the following comment: " ++ comment }

/-- What the catalogue is asked for: the identifier, or else the name. -/
def lookupKey (r : ExecutionResult) : Text :=
  r.globalId.getD r.name

end ExecutionResult

end TestCatalog
