import TestCatalog.Document.Escape
import TestCatalog.Document.Reader

/-!
# Tables

A table stands between `*begin table*` and `*end table*`. Its rows are cut into cells at bars, all
rows have as many cells as the first, and a table becomes a bordered markup table.
-/

namespace TestCatalog

namespace Table

def opener : Text := "*begin table*"

def closer : Text := "*end table*"

def cells (row : Text) : List Text :=
  row.splitOn '|'

/-! ## Markup -/

def openMarkup : Text :=
  "<p>&nbsp;</p><table border=\"1\" cellpadding=\"1\" cellspacing=\"0\" " ++
    "style=\"border-collapse:collapse; width:100%\">\n\t<tbody>"

def closeMarkup : Text :=
  "\n\t</tbody>\n</table><p>&nbsp;</p>"

def cellMarkup (cell : Text) : Text :=
  "\n\t\t\t<td>" ++ Text.trim cell ++ "</td>"

def rowMarkup (row : Text) : Text :=
  "\n\t\t<tr>" ++ (cells row).flatMap cellMarkup ++ "\n\t\t</tr>"

def markup (rows : List Text) : Text :=
  openMarkup ++ rows.flatMap rowMarkup ++ closeMarkup

/-! ## Rendering -/

/-- Adds to `html` the rows from number `index` on, which must have `expected` cells each. -/
def renderRows (case : Text) (expected : Nat) :
    (html : Text) → (index : Nat) → List Text → Except GrammarError Text
  | html, _, [] => .ok (html ++ closeMarkup)
  | html, index, row :: rows =>
    let found := (cells row).length
    if found ≠ expected then .error (.unevenTable row expected found index case)
    else renderRows case expected (html ++ rowMarkup row) (index + 1) rows

/-- The markup of escaped rows, which are a table if all have as many cells as the first. -/
def render (case : Text) : List Text → Except GrammarError Text
  | [] => .error (.emptyTable case)
  | row :: rows => renderRows case (cells row).length openMarkup 1 (row :: rows)

theorem renderRows_eq_markup {case : Text} {expected : Nat} {html shown : Text} {index : Nat}
    {rows : List Text} (h : renderRows case expected html index rows = .ok shown) :
    shown = html ++ rows.flatMap rowMarkup ++ closeMarkup := by
  induction rows generalizing html index with
  | nil =>
    rw [List.flatMap_nil, List.append_nil]
    exact (Except.ok.inj h).symm
  | cons row rows ih =>
    rw [renderRows] at h
    split at h
    · cases h
    · rw [ih h, List.flatMap_cons, List.append_assoc html]

/-- What is rendered is the markup of all rows. -/
theorem render_eq_markup {case : Text} {rows : List Text} {html : Text}
    (h : render case rows = .ok html) : html = markup rows := by
  cases rows with
  | nil => cases h
  | cons row rows => exact renderRows_eq_markup h

/-! ## Reading -/

/-- The rows up to the closer, which must come before a blank line, and the cursor after it. -/
def takeRows (n : Nat) : List Text → Option (List Text) × Cursor
  | [] => (none, ⟨n, []⟩)
  | line :: rest =>
    let row := Text.trim line
    if row = [] then (none, ⟨n + 1, rest⟩)
    else if row = closer then (some [], ⟨n + 1, rest⟩)
    else
      let (rows, c) := takeRows (n + 1) rest
      (rows.map (row :: ·), c)

theorem takeRows_reaches (n : Nat) (lines : List Text) :
    Cursor.Reaches ⟨n, lines⟩ (takeRows n lines).2 := by
  induction lines generalizing n with
  | nil => exact .refl _
  | cons line rest ih =>
    rw [takeRows]
    split
    · exact Cursor.reaches_succ n line rest
    split
    · exact Cursor.reaches_succ n line rest
    · exact (Cursor.reaches_succ n line rest).trans (ih (n + 1))

/-- The rows of a table, read from below its opener and rendered; `label` is the section it stands
in. -/
def read (label case : Text) : Reader (List Text) := fun c =>
  match takeRows c.lineNumber c.rest with
  | (none, c') => { result := .error (.unterminatedTable label case), cursor := c' }
  | (some rows, c') =>
    { result := (render case (rows.map escapeMarkup)).map fun _ => rows
      cursor := c'
      journal := [.report ((Event.debug "Table read").withDetails [
        ("section", label), ("rows", Text.ofNat rows.length),
        ("line", Text.ofNat c'.lineNumber)])] }

theorem forward_read (label case : Text) : (read label case).Forward := by
  intro c
  have h := takeRows_reaches c.lineNumber c.rest
  rw [read]
  split <;> simp_all

end Table

end TestCatalog
