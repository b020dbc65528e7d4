import TestCatalog.Diagnostics.Code

/-!
# Backend errors

What the test management backend answers when it refuses a request.
-/

namespace TestCatalog

inductive BackendError where
  | conflict (detail : Text)
  | unauthorized
  | notFound (item : Text)
  | rateLimited
  | client (status : Nat)
  | server (status : Nat)
deriving DecidableEq

namespace BackendError

/-- The error that an HTTP status stands for, if it stands for one. -/
def ofStatus? (status : Nat) (detail : Text) : Option BackendError :=
  if 200 ≤ status ∧ status ≤ 399 then none
  else if status = 401 ∨ status = 403 then some .unauthorized
  else if status = 404 then some (.notFound detail)
  else if status = 409 then some (.conflict detail)
  else if status = 429 then some .rateLimited
  else if 400 ≤ status ∧ status ≤ 499 then some (.client status)
  else some (.server status)

def message : BackendError → Text
  | conflict detail => "Conflict: " ++ detail
  | unauthorized => "Unauthorized: check the backend credentials"
  | notFound item => "Not found: " ++ item
  | rateLimited => "Rate limited by the backend"
  | client status => "Backend rejected the request with status " ++ Text.ofNat status
  | server status => "Backend failed with status " ++ Text.ofNat status

def code : BackendError → Code
  | conflict _ => .conflict
  | unauthorized => .unauthorized
  | notFound _ => .notFound
  | rateLimited => .rateLimited
  | client _ => .clientError
  | server _ => .serverError

end BackendError

end TestCatalog
