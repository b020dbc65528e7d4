import TestCatalog.Diagnostics.Journal

/-!
# Reconciliation

The identifiers of an execution are compared with those of the catalogue. What one side alone has
can come near an identifier that the other side alone has: two identifiers are near when they agree
before their first colon or after it.
-/

namespace TestCatalog

/-- The identifiers by where they were found. -/
structure Reconciliation where
  onlyExecuted : List Text := []
  onlyCatalogued : List Text := []
  nearExecuted : List Text := []
  nearCatalogued : List Text := []
  /-- The identifiers of both sides, where they were asked for. -/
  common : Option (List Text) := none
deriving DecidableEq

namespace Reconciliation

def hasDifferences (r : Reconciliation) : Bool :=
  !(r.onlyExecuted.isEmpty && r.onlyCatalogued.isEmpty && r.nearExecuted.isEmpty &&
    r.nearCatalogued.isEmpty)

def isEmpty (r : Reconciliation) : Bool :=
  !r.hasDifferences && (r.common.getD []).isEmpty

end Reconciliation

namespace Reconcile

/-- The identifiers in the order of their first occurrence, without those already seen. -/
def distinctFrom (seen : List Text) : List Text → List Text
  | [] => []
  | id :: ids => if id ∈ seen then distinctFrom seen ids else id :: distinctFrom (id :: seen) ids

def distinct (ids : List Text) : List Text :=
  distinctFrom [] ids

/-- The parts before and after the first colon; an identifier without a colon is both of them. -/
def parts (id : Text) : Text × Text :=
  match id.dropWhile (· ≠ ':') with
  | [] => (id, id)
  | _ :: after => (id.takeWhile (· ≠ ':'), after)

/-- What stands before and after the colon in the identifiers of one side. -/
structure Keys where
  before : List Text
  after : List Text

namespace Keys

def ofIds (ids : List Text) : Keys :=
  let (before, after) := (ids.map parts).unzip
  { before, after }

/-- Whether one of the identifiers that the keys come from agrees with `id` before or after the
colon. -/
def matchesId (keys : Keys) (id : Text) : Bool :=
  let (before, after) := parts id
  before ∈ keys.before || after ∈ keys.after

end Keys

/-- Parts the identifiers that come near one of the others from those that do not. -/
def partitionNear (others ids : List Text) : List Text × List Text :=
  let keys := Keys.ofIds others
  ids.partition keys.matchesId

/-- Compares the two sides; near matches and common identifiers are told apart on request. -/
def compare (fuzzy withCommon : Bool) (executed catalogued : List Text) : Reconciliation :=
  let executed := distinct executed
  let catalogued := distinct catalogued
  let onlyExecuted := executed.filter (· ∉ catalogued)
  let onlyCatalogued := catalogued.filter (· ∉ executed)
  let common := if withCommon then some (executed.filter (· ∈ catalogued)) else none
  if fuzzy then
    let (nearExecuted, farExecuted) := partitionNear onlyCatalogued onlyExecuted
    let (nearCatalogued, farCatalogued) := partitionNear onlyExecuted onlyCatalogued
    { onlyExecuted := farExecuted, onlyCatalogued := farCatalogued, nearExecuted
      nearCatalogued, common }
  else { onlyExecuted, onlyCatalogued, common }

def completed (executed catalogued : Nat) (r : Reconciliation) : Event :=
  (Event.info .reconciled "Identifier reconciliation complete").withDetails [
    ("executed", Text.ofNat executed), ("catalogued", Text.ofNat catalogued),
    ("only_in_executed", Text.ofNat r.onlyExecuted.length),
    ("only_in_catalogued", Text.ofNat r.onlyCatalogued.length),
    ("near_matches", Text.ofNat (r.nearExecuted.length + r.nearCatalogued.length))]

def run (fuzzy withCommon : Bool) (executed catalogued : List Text) : Logged Reconciliation := do
  let r := compare fuzzy withCommon executed catalogued
  Logged.note (completed (distinct executed).length (distinct catalogued).length r)
  return r

end Reconcile

end TestCatalog
