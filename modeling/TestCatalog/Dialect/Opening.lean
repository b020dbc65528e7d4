import TestCatalog.Dialect.Name
import TestCatalog.Document.Reader

/-!
# Openings

Between the header of a case and its first section stands the opening of its documentation: the
rest of a wrapped signature and a triple quote, or a marker.
-/

namespace TestCatalog.Dialect

def tripleQuote : Text := ['"', '"', '"']

def documentationMark : Text := "[Documentation]"

/-- How many more parentheses the text opens than it closes. -/
def openParens (t : Text) : Int :=
  t.foldl (fun depth c => if c = '(' then depth + 1 else if c = ')' then depth - 1 else depth) 0

/-- The depth after a line of a signature, and whether the signature ends with the line. -/
def signatureStep (depth : Int) (line : Text) : Int × Bool :=
  let code := Text.trimEnd (codePart line)
  let depth := depth + openParens code
  (depth, depth ≤ 0 && code.getLast? = some ':')

/-- Takes the lines of a signature that goes on after `line` at the given depth; whether it ends,
and the cursor there. -/
def skipSignature (depth : Int) (line : Text) (n : Nat) : List Text → Bool × Cursor
  | [] => ((signatureStep depth line).2, ⟨n, []⟩)
  | next :: rest =>
    let (depth', ends) := signatureStep depth line
    if ends then (true, ⟨n, next :: rest⟩) else skipSignature depth' next (n + 1) rest

/-- Takes blank lines and one more line; whether that line has a triple quote. -/
def takeQuotes (n : Nat) : List Text → Bool × Cursor
  | [] => (false, ⟨n, []⟩)
  | line :: rest =>
    if Text.trim line = [] then takeQuotes (n + 1) rest
    else (Text.contains tripleQuote line, ⟨n + 1, rest⟩)

/-- Takes the triple quote that must come before any other text. -/
def expectQuotes (case : Text) : Reader Unit := fun c =>
  let (found, c') := takeQuotes c.lineNumber c.rest
  { result := if found then .ok () else .error (.docStringStart case), cursor := c' }

def expectSignature (header case : Text) : Reader Unit := fun c =>
  let (ends, c') := skipSignature 0 header c.lineNumber c.rest
  { result := if ends then .ok () else .error (.docStringStart case), cursor := c' }

def expectMark (case : Text) : Reader Unit := fun c =>
  match c.next? with
  | some (line, c') =>
    { result :=
        if Text.contains documentationMark line then .ok ()
        else .error (.missingDocumentationMarker case)
      cursor := c' }
  | none => { result := .error (.missingDocumentationMarker case), cursor := c }

def expectOpening : Dialect → (header case : Text) → Reader Unit
  | annotatedFunction, header, case => do
    expectSignature header case
    expectQuotes case
  | keywordTable, _, case => expectMark case
  | featureScenario, _, case => expectQuotes case

/-! ## Moving forward -/

theorem skipSignature_reaches (depth : Int) (line : Text) (n : Nat) (lines : List Text) :
    Cursor.Reaches ⟨n, lines⟩ (skipSignature depth line n lines).2 := by
  induction lines generalizing depth line n with
  | nil => exact .refl _
  | cons next rest ih =>
    simp only [skipSignature]
    split
    · exact .refl _
    · exact (Cursor.reaches_succ n next rest).trans (ih _ _ _)

theorem takeQuotes_reaches (n : Nat) (lines : List Text) :
    Cursor.Reaches ⟨n, lines⟩ (takeQuotes n lines).2 := by
  induction lines generalizing n with
  | nil => exact .refl _
  | cons line rest ih =>
    rw [takeQuotes]
    split
    · exact (Cursor.reaches_succ n line rest).trans (ih _)
    · exact Cursor.reaches_succ n line rest

theorem forward_expectQuotes (case : Text) : (expectQuotes case).Forward :=
  fun c => takeQuotes_reaches c.lineNumber c.rest

theorem forward_expectMark (case : Text) : (expectMark case).Forward := by
  intro ⟨n, rest⟩
  cases rest with
  | nil => exact .refl _
  | cons line rest => exact Cursor.reaches_succ n line rest

theorem forward_expectOpening (d : Dialect) (header case : Text) :
    (d.expectOpening header case).Forward := by
  cases d with
  | annotatedFunction =>
    exact Reader.forward_bind (fun c => skipSignature_reaches 0 header c.lineNumber c.rest)
      fun _ => forward_expectQuotes case
  | keywordTable => exact forward_expectMark case
  | featureScenario => exact forward_expectQuotes case

end TestCatalog.Dialect
