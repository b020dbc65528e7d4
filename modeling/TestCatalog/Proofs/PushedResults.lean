import Mathlib.Tactic.Common
import TestCatalog.Backend.Push

/-!
# Results pushed in order

A run asks who the user is, then looks up and pushes one result after the other. It ends right after
the first answer that keeps a result from being pushed, so that the accepted pushes are those of the
results before it.
-/

namespace TestCatalog.Proofs

/-- What a result is pushed as: the comment of the run, if there is one, stands behind its message
under the name of the user. -/
def pushedAs (user : User) (comment : Option Text) (r : ExecutionResult) : ExecutionResult :=
  match comment with
  | none => r
  | some comment =>
    { r with
      message := r.message ++ "\n\nTest case executer '" ++ user.name ++
        "' has left the following comment: " ++ comment }

lemma commented_eq (user : User) (comment : Option Text) (r : ExecutionResult) :
    PushRun.commented user comment r = pushedAs user comment r := by
  cases comment <;> rfl

/-- The two calls that record a result under the identifier of its case. -/
def exchange (project : Text) (user : User) (comment : Option Text) (p : ExecutionResult × ℕ) :
    List BackendCall :=
  [.lookup project p.1.lookupKey, .push p.2 (pushedAs user comment p.1) user.id]

variable (b : Backend) (project : Text) (user : User) (comment : Option Text)

/-- After the calls `earlier` the backend finds the case of the result and accepts its push. -/
def Accepts (earlier : List BackendCall) (p : ExecutionResult × ℕ) : Prop :=
  b.lookup earlier project p.1.lookupKey = .ok (some p.2) ∧
    b.push (earlier ++ [.lookup project p.1.lookupKey]) p.2 (pushedAs user comment p.1) user.id =
      .ok ()

/-- A result that ends the run after the calls `earlier`: the calls that are still made for it, and
the error of the run. -/
inductive Stops (earlier : List BackendCall) (r : ExecutionResult) :
    List BackendCall → BackendError → Prop where
  | lookupRefused {e : BackendError} (h : b.lookup earlier project r.lookupKey = .error e) :
      Stops earlier r [.lookup project r.lookupKey] e
  | absent (h : b.lookup earlier project r.lookupKey = .ok none) :
      Stops earlier r [.lookup project r.lookupKey]
        (.notFound ("test case '" ++ r.lookupKey ++ "' in project '" ++ project ++ "'"))
  | pushRefused {id : ℕ} {e : BackendError}
      (hlook : b.lookup earlier project r.lookupKey = .ok (some id))
      (hpush : b.push (earlier ++ [.lookup project r.lookupKey]) id (pushedAs user comment r)
        user.id = .error e) :
      Stops earlier r (exchange project user comment (r, id)) e

/-- The run, with all its calls from the beginning, pushes the results of `pushed` after the calls
`earlier`, each under its identifier, and ends with the first of `results` that is not pushed. -/
structure PushedInOrder (earlier : List BackendCall) (results : List ExecutionResult)
    (run : PushRun) (pushed : List (ExecutionResult × ℕ)) : Prop where
  accepted : run.accepted = pushed.map fun p => (p.2, pushedAs user comment p.1, user.id)
  answered : ∀ before p after, pushed = before ++ p :: after →
    Accepts b project user comment (earlier ++ before.flatMap (exchange project user comment)) p
  ended :
    (results = pushed.map Prod.fst ∧
      run.calls = earlier ++ pushed.flatMap (exchange project user comment) ∧
      run.outcome = .ok results.length) ∨
    ∃ r rest last e, results = pushed.map Prod.fst ++ r :: rest ∧
      Stops b project user comment
        (earlier ++ pushed.flatMap (exchange project user comment)) r last e ∧
      run.calls = earlier ++ pushed.flatMap (exchange project user comment) ++ last ∧
      run.outcome = .error e

variable {b project user comment}

/-! ## One result -/

lemma caseId_eq_ok_iff {earlier : List BackendCall} {key : Text} {id : ℕ} :
    b.caseId earlier project key = .ok id ↔ b.lookup earlier project key = .ok (some id) := by
  unfold Backend.caseId
  rcases b.lookup earlier project key with e | _ | found <;>
    simp [Bind.bind, Except.bind, pure, Except.pure, throw, throwThe, MonadExceptOf.throw]

lemma caseId_eq_error_iff {earlier : List BackendCall} {key : Text} {e : BackendError} :
    b.caseId earlier project key = .error e ↔ b.lookup earlier project key = .error e ∨
      b.lookup earlier project key = .ok none ∧ PushRun.absent project key = e := by
  unfold Backend.caseId
  rcases b.lookup earlier project key with e | _ | found <;>
    simp [Bind.bind, Except.bind, pure, Except.pure, throw, throwThe, MonadExceptOf.throw]

variable (b project user comment) in
/-- A result is pushed and the run goes on with the others, or the run ends with it. -/
lemma pushFrom_cons (earlier : List BackendCall) (r : ExecutionResult)
    (rest : List ExecutionResult) :
    (∃ id, Accepts b project user comment earlier (r, id) ∧
      let others := b.pushFrom project user comment
        (earlier ++ exchange project user comment (r, id)) rest
      let run := b.pushFrom project user comment earlier (r :: rest)
      run.outcome = others.outcome.map (· + 1) ∧
        run.calls = exchange project user comment (r, id) ++ others.calls ∧
        run.accepted = (id, pushedAs user comment r, user.id) :: others.accepted) ∨
    ∃ last e, Stops b project user comment earlier r last e ∧
      let run := b.pushFrom project user comment earlier (r :: rest)
      run.outcome = .error e ∧ run.calls = last ∧ run.accepted = [] := by
  rw [Backend.pushFrom]
  simp only [commented_eq]
  cases hid : b.caseId earlier project r.lookupKey with
  | error e =>
    right
    rcases caseId_eq_error_iff.mp hid with hlook | ⟨hlook, rfl⟩
    · exact ⟨_, e, .lookupRefused hlook, rfl, rfl, rfl⟩
    · exact ⟨_, _, .absent hlook, rfl, rfl, rfl⟩
  | ok id =>
    have hlook := caseId_eq_ok_iff.mp hid
    cases hpush : b.push (earlier ++ [.lookup project r.lookupKey]) id (pushedAs user comment r)
      user.id with
    | error e =>
      right
      exact ⟨_, e, .pushRefused hlook hpush, by simp [hpush, PushRun.refused, exchange]⟩
    | ok done =>
      left
      exact ⟨id, ⟨hlook, hpush⟩, by simp [hpush, exchange]⟩

/-! ## All results -/

/-- A pushed result in front of a run in order gives a run in order. -/
lemma PushedInOrder.cons {earlier : List BackendCall} {p : ExecutionResult × ℕ}
    {results : List ExecutionResult} {others run : PushRun} {pushed : List (ExecutionResult × ℕ)}
    (hp : Accepts b project user comment earlier p)
    (h : PushedInOrder b project user comment (earlier ++ exchange project user comment p) results
      others pushed)
    (houtcome : run.outcome = others.outcome.map (· + 1)) (hcalls : run.calls = others.calls)
    (haccepted : run.accepted = (p.2, pushedAs user comment p.1, user.id) :: others.accepted) :
    PushedInOrder b project user comment earlier (p.1 :: results) run (p :: pushed) where
  accepted := by rw [haccepted, h.accepted, List.map_cons]
  answered := by
    intro before q after hsplit
    cases before with
    | nil =>
      obtain ⟨rfl, -⟩ := List.cons.inj hsplit
      simpa using hp
    | cons first before =>
      obtain ⟨rfl, hafter⟩ := List.cons.inj hsplit
      simpa using h.answered before q after hafter
  ended := by
    rcases h.ended with ⟨hresults, hcalls', hok⟩ | ⟨r, rest, last, e, hresults, hstops, hcalls', he⟩
    · left
      refine ⟨by rw [hresults, List.map_cons], by simp [hcalls, hcalls'], ?_⟩
      rw [houtcome, hok]
      rfl
    · right
      refine ⟨r, rest, last, e, by rw [hresults, List.map_cons, List.cons_append], ?_, ?_, ?_⟩
      · simpa using hstops
      · simp [hcalls, hcalls']
      · rw [houtcome, he]
        rfl

variable (b project user comment) in
lemma pushFrom_inOrder (earlier : List BackendCall) (results : List ExecutionResult) :
    let run := b.pushFrom project user comment earlier results
    ∃ pushed, PushedInOrder b project user comment earlier results
      { run with calls := earlier ++ run.calls } pushed := by
  induction results generalizing earlier with
  | nil => exact ⟨[], rfl, by simp, .inl ⟨rfl, rfl, rfl⟩⟩
  | cons r rest ih =>
    rcases pushFrom_cons b project user comment earlier r rest with
      ⟨id, hid, houtcome, hcalls, haccepted⟩ | ⟨last, e, hstops, he, hlast, hnone⟩
    · obtain ⟨pushed, hpushed⟩ := ih (earlier ++ exchange project user comment (r, id))
      refine ⟨(r, id) :: pushed, hpushed.cons hid houtcome ?_ haccepted⟩
      simp [hcalls]
    · refine ⟨[], hnone, by simp, .inr ⟨r, rest, last, e, rfl, ?_, ?_, he⟩⟩
      · simpa using hstops
      · simp [hlast]

/-- A run in order ends well exactly if it pushed every result, and then it counts them all. -/
lemma PushedInOrder.outcome_eq_ok_iff {earlier : List BackendCall} {results : List ExecutionResult}
    {run : PushRun} {pushed : List (ExecutionResult × ℕ)}
    (h : PushedInOrder b project user comment earlier results run pushed) (count : ℕ) :
    run.outcome = .ok count ↔
      run.accepted.map (fun a => a.2.1) = results.map (pushedAs user comment) ∧
        count = results.length := by
  have hpushed : run.accepted.map (fun a => a.2.1) =
      (pushed.map Prod.fst).map (pushedAs user comment) := by
    rw [h.accepted, List.map_map, List.map_map]
    rfl
  rcases h.ended with ⟨hresults, -, hok⟩ | ⟨r, rest, last, e, hresults, -, -, he⟩
  · rw [hok, hpushed, ← hresults]
    simp [eq_comm]
  · -- the result that ended the run is missing among the pushed ones
    have hmissing : run.accepted.map (fun a => a.2.1) ≠ results.map (pushedAs user comment) := by
      intro hall
      have hlength := congrArg List.length hall
      rw [hpushed, hresults] at hlength
      simp at hlength
    rw [he]
    simp [hmissing]

/-- A run makes one identity call and ends with it if it is refused. Otherwise it looks up and
pushes result after result up to the first one that is refused or absent. The run succeeds exactly
if the user is known and every result was pushed, and then it counts the results. -/
theorem pushResults_in_order (b : Backend) (project : Text) (results : List ExecutionResult)
    (comment : Option Text) :
    let run := b.pushResults project results comment
    ((∃ e, b.identity [] = .error e ∧
        run.calls = [.identity] ∧ run.accepted = [] ∧ run.outcome = .error e) ∨
      ∃ user pushed, b.identity [] = .ok user ∧
        PushedInOrder b project user comment [.identity] results run pushed) ∧
    ∀ count, run.outcome = .ok count ↔ ∃ user, b.identity [] = .ok user ∧
      run.accepted.map (fun a => a.2.1) = results.map (pushedAs user comment) ∧
        count = results.length := by
  intro run
  cases huser : b.identity [] with
  | error e =>
    have hrun : run = .refused e [.identity] := by simp only [run, Backend.pushResults, huser]
    refine ⟨.inl ⟨e, rfl, by simp [hrun, PushRun.refused]⟩, fun count => ?_⟩
    simp [hrun, PushRun.refused]
  | ok user =>
    obtain ⟨pushed, hpushed⟩ := pushFrom_inOrder b project user comment [.identity] results
    have hrun : PushedInOrder b project user comment [.identity] results run pushed := by
      simp only [run, Backend.pushResults, huser]
      exact ⟨hpushed.accepted, hpushed.answered, hpushed.ended⟩
    refine ⟨.inr ⟨user, pushed, rfl, hrun⟩, fun count => ?_⟩
    rw [hrun.outcome_eq_ok_iff]
    simp

/-- A backend that does not know the user. -/
def strangersBackend : Backend where
  identity _ := .error .unauthorized
  lookup _ _ _ := .ok none
  push _ _ _ _ := .ok ()

/-- Without a known user a run fails even if it has nothing to push. -/
theorem pushResults_nothing_refused :
    let run := strangersBackend.pushResults "TEAM_A" [] none
    run.outcome = .error .unauthorized ∧
      ¬ ((∃ count, run.outcome = .ok count) ↔ run.accepted.map (fun a => a.2.1) = []) := by
  intro run
  have hrun : run = .refused .unauthorized [.identity] := rfl
  rw [hrun]
  simp [PushRun.refused]

end TestCatalog.Proofs
