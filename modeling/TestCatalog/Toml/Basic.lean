import TestCatalog.Text.Basic

/-!
# Configuration documents

The values of a TOML document. Numbers, truth values and dates are told apart from texts and
tables only, since no setting has one of them.
-/

namespace TestCatalog

/-- How a table came to be, which decides how it may be extended. -/
inductive Toml.Origin where
  /-- By a header of its own. -/
  | header
  /-- By the header of a table inside it. -/
  | implied
  /-- By a dotted key. -/
  | dotted
  /-- As a value in braces, which is complete. -/
  | inline
deriving DecidableEq

inductive Toml where
  | text (t : Text)
  /-- A number, a truth value or a date. -/
  | scalar
  | array (items : List Toml)
  | table (origin : Toml.Origin) (entries : List (Text × Toml))
  /-- The tables of a repeated header, last first. -/
  | tables (reversed : List (List (Text × Toml)))

namespace Toml

instance : Inhabited Toml := ⟨.scalar⟩

abbrev Entries := List (Text × Toml)

def lookup (key : Text) (entries : Entries) : Option Toml :=
  (entries.find? fun entry => entry.1 = key).map Prod.snd

def put (key : Text) (value : Toml) (entries : Entries) : Entries :=
  if (lookup key entries).isSome then
    entries.map fun entry => if entry.1 = key then (key, value) else entry
  else entries ++ [(key, value)]

/-- Deeper nesting of values and longer dotted keys are refused. -/
def maxDepth : Nat := 80

def toText? : Toml → Option Text
  | text t => some t
  | _ => none

def toTexts? : Toml → Option (List Text)
  | array items => items.mapM toText?
  | _ => none

/-! ## Adding to tables -/

/-- Changes the table that a path of keys leads to from a table. Missing tables are made; `dotted`
tells a dotted key from a header. A dotted key must not go into a table with a header. -/
def descend (dotted : Bool) (change : Origin → Entries → Option Entries) :
    List Text → Origin → Entries → Option Entries
  | [], origin, entries => change origin entries
  | key :: path, _, entries =>
    match lookup key entries with
    | none => do
      let origin := if dotted then .dotted else .implied
      let made ← descend dotted change path origin []
      return put key (.table origin made) entries
    | some (.table .inline _) => none
    | some (.table origin inner) =>
      if dotted ∧ origin = .header then none
      else do
        let changed ← descend dotted change path origin inner
        return put key (.table origin changed) entries
    | some (.tables (last :: earlier)) => do
      let changed ← descend dotted change path .header last
      return put key (.tables (changed :: earlier)) entries
    | some _ => none

/-- Adds a value under a dotted key. A table that a dotted key extends must come from dotted keys
alone. -/
def insert (path : List Text) (key : Text) (value : Toml) (origin : Origin) (entries : Entries) :
    Option Entries :=
  descend true (fun origin entries =>
    if (origin = .dotted) = (path = []) then none
    else if (lookup key entries).isSome then none
    else some (entries ++ [(key, value)])) path origin entries

end Toml

end TestCatalog
