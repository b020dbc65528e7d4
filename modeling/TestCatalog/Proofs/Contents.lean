import TestCatalog.Document.Section
import TestCatalog.Proofs.EscapedText

/-!
# Contents of sections

What a section holds apart from its layout: lines without the blanks at their ends, and tables of
such cells. The catalogue shows the contents with every line and every cell escaped.
-/

namespace TestCatalog.Proofs

inductive Content where
  | line (text : Text)
  /-- The rows of the table, cut into their cells. -/
  | table (rows : List (List Text))
deriving DecidableEq

/-! ## Markup of tables -/

namespace Skeleton

def rowStart : Text := "\n\t\t<tr>"

def rowEnd : Text := "\n\t\t</tr>"

def cellStart : Text := "\n\t\t\t<td>"

def cellEnd : Text := "</td>"

def cell (text : Text) : Text :=
  cellStart ++ text ++ cellEnd

def row (cells : List Text) : Text :=
  rowStart ++ cells.flatMap cell ++ rowEnd

/-- A markup table whose cells are the given texts. -/
def table (rows : List (List Text)) : Text :=
  Table.openMarkup ++ rows.flatMap row ++ Table.closeMarkup

end Skeleton

/-- The cells of a row without the blanks at their ends. -/
def cellTexts (row : Text) : List Text :=
  (Table.cells row).map Text.trim

lemma rowMarkup_eq (row : Text) : Table.rowMarkup row = Skeleton.row (cellTexts row) := by
  rw [Skeleton.row, cellTexts, List.flatMap_map]
  rfl

lemma markup_eq (rows : List Text) : Table.markup rows = Skeleton.table (rows.map cellTexts) := by
  rw [Skeleton.table, List.flatMap_map, Table.markup, funext rowMarkup_eq]

lemma cellTexts_trim (row : Text) : cellTexts (Text.trim row) = cellTexts row :=
  map_trim_splitOn_trim (by decide) row

lemma map_cellTexts_trim (rows : List Text) :
    (rows.map Text.trim).map cellTexts = rows.map cellTexts := by
  rw [List.map_map]
  exact List.map_congr_left fun row _ => cellTexts_trim row

lemma cellTexts_escapeMarkup (row : Text) :
    cellTexts (escapeMarkup row) = (cellTexts row).map escapeMarkup := by
  rw [cellTexts, cells_escapeMarkup, List.map_map, cellTexts, List.map_map]
  exact List.map_congr_left fun cell _ => trim_escapeMarkup cell

/-! ## Contents of items -/

namespace Content

def ofItem : Item → Content
  | .line text => .line text
  | .table rows => .table (rows.map cellTexts)

/-- The content as its section shows it. -/
def markup (s : Section) : Content → Text
  | .line text => s.separator ++ escapeMarkup text
  | .table rows => "\n\n" ++ Skeleton.table (rows.map (·.map escapeMarkup))

end Content

lemma renderItem_eq (s : Section) (item : Item) :
    s.renderItem item = (Content.ofItem item).markup s := by
  cases item with
  | line text => rfl
  | table rows =>
    have hrows : (rows.map escapeMarkup).map cellTexts =
        (rows.map cellTexts).map (·.map escapeMarkup) := by
      rw [List.map_map, List.map_map]
      exact List.map_congr_left fun row _ => cellTexts_escapeMarkup row
    rw [Section.renderItem, markup_eq, hrows]
    rfl

/-- A section shows what its items hold. -/
theorem render_eq (s : Section) (items : List Item) :
    s.render items = (items.map Content.ofItem).flatMap (Content.markup s) := by
  rw [Section.render, List.flatMap_map, funext (renderItem_eq s)]

end TestCatalog.Proofs
