import TestCatalog.Backend.Error
import TestCatalog.Backend.Execution
import TestCatalog.Diagnostics.Journal

/-!
# Pushed results

The results of a run are pushed one by one: each is looked up in its project and then recorded. The
first refusal ends the run, and no call is made twice.
-/

namespace TestCatalog

structure User where
  id : Nat
  name : Text
deriving DecidableEq

inductive BackendCall where
  | identity
  | lookup (project key : Text)
  | push (caseId : Nat) (result : ExecutionResult) (userId : Nat)
deriving DecidableEq

/-- A backend by its answers, which may depend on the calls made before. -/
structure Backend where
  identity : (earlier : List BackendCall) → Except BackendError User
  /-- The identifier of a case in a project, if the project has the case. -/
  lookup : (earlier : List BackendCall) → (project key : Text) → Except BackendError (Option Nat)
  push : (earlier : List BackendCall) → (caseId : Nat) → ExecutionResult → (userId : Nat) →
    Except BackendError Unit

/-- What a run did: all its calls in order, the pushes that were accepted, and how it ended. -/
structure PushRun where
  outcome : Except BackendError Nat
  calls : List BackendCall := []
  accepted : List (Nat × ExecutionResult × Nat) := []
  journal : Journal := []

namespace PushRun

def refused (e : BackendError) (calls : List BackendCall) : PushRun :=
  { outcome := .error e, calls, journal := [.report (.error e.code e.message)] }

def pushed (r : ExecutionResult) (caseId : Nat) : Event :=
  (Event.debug "Result pushed").withDetails
    [("case", r.lookupKey), ("case_id", Text.ofNat caseId), ("status", r.status.recorded)]

def completed (project : Text) (results : Nat) (user : User) : Event :=
  (Event.info .resultsPushed "Execution results pushed").withDetails
    [("project", project), ("results", Text.ofNat results), ("user", user.name)]

def absent (project key : Text) : BackendError :=
  .notFound ("test case '" ++ key ++ "' in project '" ++ project ++ "'")

/-- The result as it is pushed: with the comment of the run under the user's name. -/
def commented (user : User) (comment : Option Text) (r : ExecutionResult) : ExecutionResult :=
  match comment with
  | some comment => r.addComment user.name comment
  | none => r

end PushRun

namespace Backend

def caseId (b : Backend) (earlier : List BackendCall) (project key : Text) :
    Except BackendError Nat := do
  match ← b.lookup earlier project key with
  | some id => return id
  | none => throw (PushRun.absent project key)

/-- Pushes results after the calls `earlier`; the run counts the results of this call only. -/
def pushFrom (b : Backend) (project : Text) (user : User) (comment : Option Text)
    (earlier : List BackendCall) : List ExecutionResult → PushRun
  | [] => { outcome := .ok 0 }
  | r :: rest =>
    let look := BackendCall.lookup project r.lookupKey
    match b.caseId earlier project r.lookupKey with
    | .error e => .refused e [look]
    | .ok id =>
      let sent := PushRun.commented user comment r
      let push := BackendCall.push id sent user.id
      match b.push (earlier ++ [look]) id sent user.id with
      | .error e => .refused e [look, push]
      | .ok () =>
        let others := b.pushFrom project user comment (earlier ++ [look, push]) rest
        { outcome := others.outcome.map (· + 1)
          calls := look :: push :: others.calls
          accepted := (id, sent, user.id) :: others.accepted
          journal := .report (PushRun.pushed r id) :: others.journal }

/-- Pushes the results of a run, each with the comment if there is one. -/
def pushResults (b : Backend) (project : Text) (results : List ExecutionResult)
    (comment : Option Text) : PushRun :=
  match b.identity [] with
  | .error e => .refused e [.identity]
  | .ok user =>
    let run := b.pushFrom project user comment [.identity] results
    let closing : Journal :=
      match run.outcome with
      | .ok _ => [.report (PushRun.completed project results.length user)]
      | .error _ => []
    { run with calls := .identity :: run.calls, journal := run.journal ++ closing }

end Backend

end TestCatalog
