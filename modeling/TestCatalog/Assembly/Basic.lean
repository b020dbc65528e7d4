import TestCatalog.Assembly.Body

/-!
# Assembly

The assembler goes through a filtered block line by line. A line that starts with a mark of the
dialect is the header of a case, whose body follows. The first error ends the whole block.
-/

namespace TestCatalog

/-- Which cases are wanted. A mode that wants none validates: it takes both kinds. -/
structure SyncMode where
  wantAdd : Bool := false
  wantUpdate : Bool := false
deriving DecidableEq

/-- Whether a case has an identifier yet. -/
inductive CaseKind where
  | add
  | update
deriving DecidableEq

namespace SyncMode

def addOnly : SyncMode := { wantAdd := true }

def updateOnly : SyncMode := { wantUpdate := true }

def both : SyncMode := { wantAdd := true, wantUpdate := true }

def validation : SyncMode := {}

def isValidation (mode : SyncMode) : Bool :=
  !mode.wantAdd && !mode.wantUpdate

def accepts (mode : SyncMode) : CaseKind → Bool
  | .add => mode.wantAdd || mode.isValidation
  | .update => mode.wantUpdate || mode.isValidation

end SyncMode

/-- The cases of a block, in the order of their headers. -/
structure ParsedCases where
  added : List TestCase := []
  updated : List TestCase := []
  warnings : List AssemblyWarning := []

namespace ParsedCases

def size (cases : ParsedCases) : Nat :=
  cases.added.length + cases.updated.length

def isEmpty (cases : ParsedCases) : Bool :=
  cases.size = 0

instance : Append ParsedCases :=
  ⟨fun a b => ⟨a.added ++ b.added, a.updated ++ b.updated, a.warnings ++ b.warnings⟩⟩

/-- The cases of several sources, in order. -/
def concat (parts : List ParsedCases) : ParsedCases :=
  parts.foldr (· ++ ·) {}

def single (kind : CaseKind) (case : TestCase) (warning : Option AssemblyWarning) : ParsedCases :=
  match kind with
  | .add => { added := [case], warnings := warning.toList }
  | .update => { updated := [case], warnings := warning.toList }

end ParsedCases

/-- What a block is assembled with; `folder` is recorded on every case. -/
structure Assembler where
  config : SyncConfig
  dialect : Dialect
  mode : SyncMode
  folder : Text

namespace Assembler

/-- The kind of case that a trimmed line starts, if it starts one that is wanted. -/
def kindOfHeader? (a : Assembler) (header : Text) : Option CaseKind :=
  if a.mode.accepts .add && Text.startsWith a.dialect.profile.addMark header then some .add
  else if a.mode.accepts .update && Text.startsWith a.dialect.profile.updateMark header then
    some .update
  else none

/-- The identifier of a case: the one its name carries, or the placeholder. -/
def globalId (a : Assembler) (kind : CaseKind) (name : Text) : Text :=
  match kind with
  | .add => a.dialect.profile.placeholder
  | .update => a.dialect.idOfName name

/-! ## Reports -/

def failed (header : Text) (e : GrammarError) (line : Nat) : Event :=
  ((Event.error e.code e.message).atLine line).withDetail ("case", e.case?.getD header)

def assembled (case : TestCase) : Event :=
  (Event.info .caseAssembled "Test case assembled").withDetails
    [("case", case.name), ("global_id", case.globalId), ("steps", Text.ofNat case.steps.length)]

def started (a : Assembler) (c : Cursor) : Event :=
  (Event.debug "Assembling documentation block").withDetails
    [("dialect", a.dialect.name), ("lines", Text.ofNat c.lineCount), ("folder", a.folder)]

def finished (cases : ParsedCases) : Event :=
  (Event.info .blockAssembled "Documentation block assembled").withDetails
    [("added", Text.ofNat cases.added.length), ("updated", Text.ofNat cases.updated.length),
      ("warnings", Text.ofNat cases.warnings.length)]

/-! ## Blocks -/

def readCases (a : Assembler) (c : Cursor) : Reading ParsedCases :=
  match hc : c.rest with
  | [] => { result := .ok {}, cursor := c }
  | line :: rest =>
    let header := Text.trim line
    let below : Cursor := ⟨c.lineNumber + 1, rest⟩
    match a.kindOfHeader? header with
    | none => readCases a below
    | some kind =>
      let name := a.dialect.nameOfHeader header
      match hr : CaseBody.read a.config a.dialect header name below with
      | ⟨.error e, c', journal⟩ =>
        ⟨.error e, c', journal ++ [.report (failed header e c'.lineNumber)]⟩
      | ⟨.ok body, c', journal⟩ =>
        have : c'.rest.length < c.rest.length := by
          have := (CaseBody.forward_read a.config a.dialect header name below).length_le
          rw [hr] at this
          rw [hc, List.length_cons]
          exact Nat.lt_succ_of_le this
        let case := body.toCase a.config a.dialect name (a.globalId kind name) a.folder
        let others := readCases a c'
        { result := others.result.map (ParsedCases.single kind case body.warning ++ ·)
          cursor := others.cursor
          journal := journal ++ .report (assembled case) :: others.journal }
termination_by c.rest.length
decreasing_by
  · simp [hc]
  · exact this

def assemble (a : Assembler) (block : Text) : Logged (Except GrammarError ParsedCases) :=
  let c := Cursor.ofText block
  let reading := a.readCases c
  let closing : Journal :=
    match reading.result with
    | .ok cases => [.report (finished cases)]
    | .error _ => []
  { value := reading.result
    journal := .report (a.started c) :: reading.journal ++ closing }

end Assembler

end TestCatalog
