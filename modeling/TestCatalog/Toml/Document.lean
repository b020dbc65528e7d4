import TestCatalog.Toml.Scan

/-!
# Reading configuration documents

A document is a sequence of settings under table headers. Headers and dotted keys build the tree of
tables; no table and no key is defined twice.
-/

namespace TestCatalog.Toml

/-- The document so far. The table of the last header is kept apart until the next one. -/
structure Builder where
  root : Entries := []
  current : Entries := []
  /-- The path of the last header; empty before the first one. -/
  path : List Text := []
  /-- Whether the last header is a repeated one. -/
  repeated : Bool := false

namespace Builder

def close (b : Builder) : Option Entries :=
  match b.path.getLast? with
  | none => some b.current
  | some key =>
    descend false (fun _ entries =>
      if b.repeated then
        match lookup key entries with
        | some (.tables reversed) => some (put key (.tables (b.current :: reversed)) entries)
        | _ => none
      else some (put key (.table .header b.current) entries)) b.path.dropLast .header b.root

/-- Starts a table. It must be new, or a table that only headers inside it have made. -/
def openTable (path : List Text) (b : Builder) : Option Builder := do
  let root ← b.close
  let key := path.getLast?.getD []
  let parent := path.dropLast
  let current ← find parent root
  match lookup key current with
  | none =>
    let root ← descend false (fun _ entries => some entries) parent .header root
    return { root, path }
  | some (.table .implied inner) =>
    let root ← descend false (fun _ entries => some (entries.filter (·.1 ≠ key))) parent .header
      root
    return { root, current := inner, path }
  | some _ => none
where
  /-- The table at a path, empty where it is yet to be made. -/
  find : List Text → Entries → Option Entries
    | [], entries => some entries
    | key :: path, entries =>
      match lookup key entries with
      | none => some []
      | some (.table .inline _) => none
      | some (.table _ inner) => find path inner
      | some (.tables (last :: _)) => find path last
      | some _ => none

def openRepeated (path : List Text) (b : Builder) : Option Builder := do
  let root ← b.close
  let key := path.getLast?.getD []
  let root ← descend false (fun _ entries =>
    match lookup key entries with
    | none => some (entries ++ [(key, .tables [])])
    | some (.tables _) => some entries
    | some _ => none) path.dropLast .header root
  return { root, path, repeated := true }

def addSetting (path : List Text) (value : Toml) (b : Builder) : Option Builder := do
  let current ← insert path.dropLast (path.getLast?.getD []) value .header b.current
  return { b with current }

end Builder

namespace Scan

/-- One line of a document, without its first blanks, and what it does to the tree. -/
def line : Scan (Builder → Option Builder) :=
  (do newline; return some) <|>
  (do comment; newline <|> atEnd; return some) <|>
  (do
    tag "[["
    let path ← key
    tag "]]"
    lineEnd
    return Builder.openRepeated path) <|>
  (do
    tag "["
    let path ← key
    tag "]"
    lineEnd
    return Builder.openTable path) <|>
  (do
    let path ← key
    tag "="
    blanks
    let v ← value maxDepth
    lineEnd
    return Builder.addSetting path v)

def document : Scan (List (Builder → Option Builder)) := do
  let _ ← optional (tag ['\uFEFF'])
  blanks
  let lines ← many (do let l ← line; blanks; return l)
  atEnd
  return lines

end Scan

/-- The tree of a document, if the text is one. -/
def parse? (t : Text) : Option Entries := do
  let (lines, _) ← Scan.document.run t
  let builder ← lines.foldlM (fun b step => step b) {}
  builder.close

end TestCatalog.Toml
