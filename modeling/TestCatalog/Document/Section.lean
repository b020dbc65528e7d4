import TestCatalog.Document.Table

/-!
# Sections

A section starts at its header line and ends at a blank line. Description holds free text; the
lines of the other sections start with a dash or with the next number. Tables stand in all three.
-/

namespace TestCatalog

inductive Section where
  | description
  | prerequisites
  | testData
deriving DecidableEq

inductive Item where
  | line (text : Text)
  | table (rows : List Text)
deriving DecidableEq

namespace Section

/-- The sections in the order of the document. -/
def all : List Section := [description, prerequisites, testData]

def label : Section → Text
  | description => "Description"
  | prerequisites => "Prerequisites"
  | testData => "Test Data"

def isFreeForm (s : Section) : Bool :=
  s = description

/-- What precedes every line of the section in the catalogue. -/
def separator (s : Section) : Text :=
  if s.isFreeForm then "\n" else "\n\n"

/-! ## Written form -/

def renderItem (s : Section) : Item → Text
  | .line text => s.separator ++ escapeMarkup text
  | .table rows => "\n\n" ++ Table.markup (rows.map escapeMarkup)

def render (s : Section) (items : List Item) : Text :=
  items.flatMap s.renderItem

/-! ## Reading -/

def numberMark (count : Nat) : Text :=
  Text.ofNat count ++ ")"

/-- Whether the line is `label` followed by a colon and anything else. -/
def isHeader (label line : Text) : Bool :=
  Text.startsWith (label ++ ":") line

def expectHeader (label case : Text) (first : Bool) : Reader Unit := do
  let line ← Reader.nextTrimmed
  if isHeader label line then pure () else Reader.fail (.missingSectionHeader label case first)

theorem forward_expectHeader (label case : Text) (first : Bool) :
    (expectHeader label case first).Forward :=
  Reader.forward_bind Reader.forward_nextTrimmed fun line => by
    cases h : isHeader label line
    · simpa [h] using Reader.forward_fail _
    · simpa [h] using Reader.forward_pure _

def consItem (item : Item) (journal : Journal) (rest : Reading (List Item)) :
    Reading (List Item) :=
  { result := rest.result.map (item :: ·)
    cursor := rest.cursor
    journal := journal ++ rest.journal }

/-- The items up to the blank line that ends the section; the next numbered line is `count`. -/
def readItems (s : Section) (case : Text) (count : Nat) (c : Cursor) : Reading (List Item) :=
  match h : c.rest with
  | [] => { result := .ok [], cursor := c }
  | line :: rest =>
    let text := Text.trim line
    let c' : Cursor := ⟨c.lineNumber + 1, rest⟩
    let numbered := Text.startsWith (numberMark count) text
    if text = [] then { result := .ok [], cursor := c' }
    else if text = Table.opener then
      have : (Table.read s.label case c').cursor.rest.length < c.rest.length := by
        have := (Table.forward_read s.label case c').length_le
        rw [h, List.length_cons]
        exact Nat.lt_succ_of_le this
      match hr : Table.read s.label case c' with
      | ⟨.ok rows, c'', journal⟩ => consItem (.table rows) journal (readItems s case count c'')
      | ⟨.error e, c'', journal⟩ => ⟨.error e, c'', journal⟩
    else if s.isFreeForm then consItem (.line text) [] (readItems s case count c')
    else if numbered then consItem (.line text) [] (readItems s case (count + 1) c')
    else if Text.startsWith "-" text then consItem (.line text) [] (readItems s case count c')
    else { result := .error (.malformedSectionLine count s.label case), cursor := c' }
termination_by c.rest.length
decreasing_by
  · simpa [hr] using this
  all_goals simp [h]

/-- A whole section, with its header and the blank line that ends it. -/
def read (s : Section) (case : Text) : Reader (List Item) := do
  expectHeader s.label case (s = description)
  readItems s case 1

theorem forward_readItems (s : Section) (case : Text) (count : Nat) :
    Reader.Forward (readItems s case count) := by
  intro c
  fun_induction readItems s case count c with
  | case1 => exact .refl _
  | case2 count c line rest h text c' => exact ⟨[line], by simp [h, c'], rfl⟩
  | case3 count c line rest h text c' _ _ _ rows c'' journal hr ih =>
    have hc' : c.Reaches c' := ⟨[line], by simp [h, c'], rfl⟩
    have := Table.forward_read s.label case c'
    rw [hr] at this
    exact hc'.trans (this.trans ih)
  | case4 count c line rest h text c' _ _ _ e c'' journal hr =>
    have hc' : c.Reaches c' := ⟨[line], by simp [h, c'], rfl⟩
    have := Table.forward_read s.label case c'
    rw [hr] at this
    exact hc'.trans this
  | case5 count c line rest h text c' _ _ _ ih =>
    exact Cursor.Reaches.trans ⟨[line], by simp [h, c'], rfl⟩ ih
  | case6 count c line rest h text c' _ _ _ _ _ ih =>
    exact Cursor.Reaches.trans ⟨[line], by simp [h, c'], rfl⟩ ih
  | case7 count c line rest h text c' _ _ _ _ _ _ ih =>
    exact Cursor.Reaches.trans ⟨[line], by simp [h, c'], rfl⟩ ih
  | case8 count c line rest h text c' => exact ⟨[line], by simp [h, c'], rfl⟩

theorem forward_read (s : Section) (case : Text) : (read s case).Forward :=
  Reader.forward_bind (forward_expectHeader _ _ _) fun _ => forward_readItems s case 1

end Section

end TestCatalog
