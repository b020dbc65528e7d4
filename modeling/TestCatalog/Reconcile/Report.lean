import TestCatalog.Reconcile.Basic
import TestCatalog.Text.Utf8

/-!
# Reconciliation reports

The report lists the identifiers found on one side alone, the near matches of either side and the
common identifiers, each list under a heading that counts it.
-/

namespace TestCatalog.Reconciliation

def banner : Text :=
  "==================== RECONCILIATION REPORT ===================="

def indent : Text :=
  "     "

/-- The heading of a list of `n` entries: `1 test case was …` and `2 test cases were …`. -/
def heading (n : Nat) (say : (be has : Text) → Text) : Text :=
  let one : Bool := n = 1
  let subject : Text := if one then "test case" else "test cases"
  "The following " ++ Text.ofNat n ++ " " ++ subject ++ " " ++
    say (if one then "was" else "were") (if one then "has" else "have")

def entryLine (entry : Text) : Text :=
  "\n" ++ indent ++ entry

/-- A heading and its entries, one line each; nothing for no entries. -/
def block (entries : List Text) (say : (be has : Text) → Text) : List Text :=
  if entries = [] then []
  else [heading entries.length say ++ entries.flatMap entryLine]

def blocks (r : Reconciliation) : List Text :=
  block r.onlyExecuted (fun be _ => be ++ " executed but not found in the catalogue:") ++
  block r.onlyCatalogued (fun be _ => be ++ " in the catalogue but not executed:") ++
  block r.nearExecuted (fun be has =>
    be ++ " executed and " ++ has ++ " a near match in the catalogue:") ++
  block r.nearCatalogued (fun be has =>
    be ++ " in the catalogue and " ++ has ++ " a near match in the execution:") ++
  block (r.common.getD []) (fun be _ => be ++ " both executed and in the catalogue:")

/-- The report between its banner and a rule of the same width. -/
def render (r : Reconciliation) : Text :=
  let body : Text := if r.blocks = [] then [] else Text.join "\n\n" r.blocks ++ "\n"
  banner ++ "\n" ++ body ++ List.replicate banner.length '=' ++ "\n"

end TestCatalog.Reconciliation
