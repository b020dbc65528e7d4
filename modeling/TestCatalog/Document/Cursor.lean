import TestCatalog.Text.Basic

/-!
# Line cursors

A cursor stands between two lines of a block. Lines are read without the blanks at their end.
-/

namespace TestCatalog

/-- The number of lines read so far, and the lines still to come. -/
structure Cursor where
  lineNumber : Nat
  rest : List Text

namespace Cursor

def ofText (block : Text) : Cursor :=
  ⟨0, (Text.lines block).map Text.trimEnd⟩

def peek? (c : Cursor) : Option Text :=
  c.rest.head?

def next? (c : Cursor) : Option (Text × Cursor) :=
  match c.rest with
  | [] => none
  | line :: rest => some (line, ⟨c.lineNumber + 1, rest⟩)

/-- The next line, where the end of the block counts as a blank line. -/
def nextOrBlank (c : Cursor) : Text × Cursor :=
  c.next?.getD ([], c)

def isAtEnd (c : Cursor) : Bool :=
  c.rest.isEmpty

def lineCount (c : Cursor) : Nat :=
  c.lineNumber + c.rest.length

/-- `c'` stands at `c` or some lines after it in the same block. -/
def Reaches (c c' : Cursor) : Prop :=
  ∃ taken, c.rest = taken ++ c'.rest ∧ c'.lineNumber = c.lineNumber + taken.length

theorem Reaches.refl (c : Cursor) : c.Reaches c :=
  ⟨[], rfl, rfl⟩

theorem Reaches.trans {a b c : Cursor} (hab : a.Reaches b) (hbc : b.Reaches c) : a.Reaches c := by
  obtain ⟨s, hs, hs'⟩ := hab
  obtain ⟨t, ht, ht'⟩ := hbc
  exact ⟨s ++ t, by simp [hs, ht], by simp [hs', ht', Nat.add_assoc]⟩

theorem reaches_succ (n : Nat) (line : Text) (rest : List Text) :
    Reaches ⟨n, line :: rest⟩ ⟨n + 1, rest⟩ :=
  ⟨[line], rfl, rfl⟩

theorem Reaches.length_le {c c' : Cursor} (h : c.Reaches c') :
    c'.rest.length ≤ c.rest.length := by
  obtain ⟨taken, h, _⟩ := h
  simp [h]

theorem nextOrBlank_reaches (c : Cursor) : c.Reaches c.nextOrBlank.2 := by
  obtain ⟨n, rest⟩ := c
  cases rest with
  | nil => exact .refl _
  | cons line rest => exact reaches_succ n line rest

end Cursor

end TestCatalog
