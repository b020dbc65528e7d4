import Mathlib.Data.List.Forall2
import TestCatalog.Proofs.Contents

/-!
# Table shapes

Rows are a table if there is one and all have the same number of cells. A table is rendered row by
row and cell by cell. Other rows are rejected at the first one that has not as many cells as the
row at the top.
-/

namespace TestCatalog.Proofs

/-! ## Cells -/

/-- The number of cells of a row, one more than it has bars. -/
def width (row : Text) : ℕ :=
  List.count '|' row + 1

/-- The cells of a row: the texts without bars that make it up when bars join them. -/
structure HasCells (row : Text) (cells : List Text) : Prop where
  ne_nil : cells ≠ []
  barless : ∀ cell ∈ cells, '|' ∉ cell
  joined : Text.join "|" cells = row

lemma length_cells (row : Text) : (Table.cells row).length = width row := by
  induction row with
  | nil => rfl
  | cons c row ih =>
    have hrow : (row.splitOn '|').length = List.count '|' row + 1 := ih
    rw [Table.cells, width, List.splitOn_cons_eq_if_modifyHead, List.count_cons]
    split
    · rw [List.length_cons, hrow]
    · rw [List.length_modifyHead, hrow, Nat.add_zero]

lemma hasCells_iff {row : Text} {cells : List Text} :
    HasCells row cells ↔ Table.cells row = cells := by
  constructor
  · intro h
    rw [← h.joined]
    exact List.splitOn_intercalate '|' h.barless h.ne_nil
  · rintro rfl
    exact ⟨List.splitOn_ne_nil '|' row, fun _ => notMem_of_mem_splitOn,
      List.intercalate_splitOn '|'⟩

/-! ## Shapes -/

/-- The rows of a table, cut into `c` cells each. -/
structure IsGrid (c : ℕ) (rows : List Text) (grid : List (List Text)) : Prop where
  ne_nil : rows ≠ []
  cells : List.Forall₂ HasCells rows grid
  even : ∀ cells ∈ grid, cells.length = c

/-- Why rows are no table. -/
inductive Misshapen (case : Text) : List Text → GrammarError → Prop where
  | empty : Misshapen case [] (.emptyTable case)
  /-- The row below `above` is the first one that differs in its cells from the top row. -/
  | uneven {top row : Text} {above below : List Text} (htop : above.head? = some top)
      (habove : ∀ r ∈ above, width r = width top) (hrow : width row ≠ width top) :
      Misshapen case (above ++ row :: below)
        (.unevenTable row (width top) (width row) (above.length + 1) case)

lemma exists_first_not {α : Type} (p : α → Prop) (l : List α) :
    (∀ a ∈ l, p a) ∨ ∃ above a below, l = above ++ a :: below ∧ (∀ b ∈ above, p b) ∧ ¬ p a := by
  induction l with
  | nil => exact .inl (by simp)
  | cons a l ih =>
    by_cases ha : p a
    · rcases ih with h | ⟨above, b, below, rfl, habove, hb⟩
      · exact .inl (List.forall_mem_cons.mpr ⟨ha, h⟩)
      · exact .inr ⟨a :: above, b, below, rfl, List.forall_mem_cons.mpr ⟨ha, habove⟩, hb⟩
    · exact .inr ⟨[], a, l, rfl, by simp, ha⟩

/-- Rows all have the same number of cells, or are no table. -/
lemma even_or_misshapen (case : Text) (rows : List Text) :
    (rows ≠ [] ∧ ∃ c, ∀ row ∈ rows, width row = c) ∨ ∃ e, Misshapen case rows e := by
  cases rows with
  | nil => exact .inr ⟨_, .empty⟩
  | cons top rows =>
    rcases exists_first_not (fun r => width r = width top) (top :: rows) with
      heven | ⟨above, row, below, hsplit, habove, hrow⟩
    · exact .inl ⟨List.cons_ne_nil _ _, width top, heven⟩
    · right
      cases above with
      | nil =>
        obtain ⟨rfl, -⟩ := List.cons.inj hsplit
        exact absurd rfl hrow
      | cons first above =>
        obtain ⟨rfl, -⟩ := List.cons.inj hsplit
        rw [hsplit]
        exact ⟨_, .uneven rfl habove hrow⟩

lemma isGrid_iff {c : ℕ} {rows : List Text} {grid : List (List Text)} :
    IsGrid c rows grid ↔
      rows ≠ [] ∧ (∀ row ∈ rows, width row = c) ∧ rows.map Table.cells = grid := by
  have hcells : List.Forall₂ HasCells rows grid ↔ rows.map Table.cells = grid := by
    have hsame : HasCells = fun row cells => Table.cells row = cells := by
      funext row cells
      exact propext hasCells_iff
    calc List.Forall₂ HasCells rows grid
      _ ↔ List.Forall₂ (· = ·) (rows.map Table.cells) grid := by
        rw [hsame, List.forall₂_map_left_iff]
      _ ↔ rows.map Table.cells = grid := by rw [List.forall₂_eq_eq_eq]
  constructor
  · rintro ⟨hne, hgrid, heven⟩
    obtain rfl := hcells.mp hgrid
    refine ⟨hne, fun row hrow => ?_, rfl⟩
    rw [← length_cells]
    exact heven _ (List.mem_map_of_mem hrow)
  · rintro ⟨hne, heven, hgrid⟩
    refine ⟨hne, hcells.mpr hgrid, fun cells hmem => ?_⟩
    subst hgrid
    obtain ⟨row, hrow, rfl⟩ := List.mem_map.mp hmem
    rw [length_cells]
    exact heven row hrow

/-! ## Rendering -/

/-- Rows that have as many cells as expected are added to the markup one by one. -/
lemma renderRows_append (case : Text) {expected : ℕ} {above : List Text} (html : Text) (index : ℕ)
    (rows : List Text) (h : ∀ row ∈ above, (Table.cells row).length = expected) :
    Table.renderRows case expected html index (above ++ rows) =
      Table.renderRows case expected (html ++ above.flatMap Table.rowMarkup)
        (index + above.length) rows := by
  induction above generalizing html index with
  | nil => rw [List.flatMap_nil, List.append_nil]; rfl
  | cons row above ih =>
    rw [List.cons_append, Table.renderRows, if_neg (not_not_intro (h row List.mem_cons_self)),
      ih _ (index + 1) fun row' hrow' => h row' (List.mem_cons_of_mem row hrow'),
      List.flatMap_cons, List.append_assoc, List.length_cons, Nat.add_right_comm, Nat.add_assoc]

/-- Rendering passes the first rows, if they have as many cells each. -/
lemma render_append (case : Text) {expected : ℕ} {above : List Text} (rows : List Text)
    (hne : above ≠ []) (h : ∀ row ∈ above, (Table.cells row).length = expected) :
    Table.render case (above ++ rows) =
      Table.renderRows case expected (Table.openMarkup ++ above.flatMap Table.rowMarkup)
        (1 + above.length) rows := by
  obtain ⟨top, others, rfl⟩ := List.exists_cons_of_ne_nil hne
  rw [← renderRows_append case Table.openMarkup 1 rows h, ← h top List.mem_cons_self]
  rfl

lemma render_even (case : Text) {expected : ℕ} {rows : List Text} (hne : rows ≠ [])
    (h : ∀ row ∈ rows, (Table.cells row).length = expected) :
    Table.render case rows = .ok (Table.markup rows) := by
  have hrender := render_append case [] hne h
  rwa [List.append_nil] at hrender

lemma render_uneven (case : Text) {expected : ℕ} {above : List Text} {row : Text}
    (below : List Text) (hne : above ≠ []) (habove : ∀ r ∈ above, (Table.cells r).length = expected)
    (hrow : (Table.cells row).length ≠ expected) :
    Table.render case (above ++ row :: below) =
      .error (.unevenTable row expected (Table.cells row).length (above.length + 1) case) := by
  rw [render_append case _ hne habove, Table.renderRows, if_pos hrow, Nat.add_comm]

/-- Rows of one width are rendered as a table of their trimmed cells. -/
lemma render_of_width (case : Text) {rows : List Text} {c : ℕ} (hne : rows ≠ [])
    (h : ∀ row ∈ rows, width row = c) :
    Table.render case rows =
      .ok (Skeleton.table ((rows.map Table.cells).map (·.map Text.trim))) := by
  simp only [← length_cells] at h
  rw [render_even case hne h, List.map_map]
  exact congrArg Except.ok (markup_eq rows)

lemma render_misshapen {case : Text} {rows : List Text} {e : GrammarError}
    (h : Misshapen case rows e) : Table.render case rows = .error e := by
  cases h with
  | empty => rfl
  | @uneven top row above below htop habove hrow =>
    have hne : above ≠ [] := by
      rintro rfl
      cases htop
    simp only [← length_cells] at habove hrow ⊢
    exact render_uneven case below hne habove hrow

lemma render_eq_ok_iff {case : Text} {rows : List Text} {html : Text} :
    Table.render case rows = .ok html ↔
      ∃ c grid, IsGrid c rows grid ∧ html = Skeleton.table (grid.map (·.map Text.trim)) := by
  constructor
  · intro hrender
    rcases even_or_misshapen case rows with ⟨hne, c, heven⟩ | ⟨e, hbad⟩
    · rw [render_of_width case hne heven] at hrender
      exact ⟨c, _, isGrid_iff.mpr ⟨hne, heven, rfl⟩, (Except.ok.inj hrender).symm⟩
    · rw [render_misshapen hbad] at hrender
      cases hrender
  · rintro ⟨c, grid, hgrid, rfl⟩
    obtain ⟨hne, heven, rfl⟩ := isGrid_iff.mp hgrid
    exact render_of_width case hne heven

lemma render_eq_error_iff {case : Text} {rows : List Text} {e : GrammarError} :
    Table.render case rows = .error e ↔ Misshapen case rows e := by
  refine ⟨fun hrender => ?_, render_misshapen⟩
  rcases even_or_misshapen case rows with ⟨hne, c, heven⟩ | ⟨e', hbad⟩
  · rw [render_of_width case hne heven] at hrender
    cases hrender
  · rw [render_misshapen hbad] at hrender
    cases hrender
    exact hbad

/-- Rows are rendered if they are a table, as the trimmed cells of each row in order. Otherwise the
error names the first row that is uneven, or says that there is none. -/
theorem render_rectangular (case : Text) (rows : List Text) :
    ((∃ html, Table.render case rows = .ok html) ↔
        rows ≠ [] ∧ ∃ c, ∀ row ∈ rows, width row = c) ∧
      (∀ html, Table.render case rows = .ok html ↔
        ∃ c grid, IsGrid c rows grid ∧ html = Skeleton.table (grid.map (·.map Text.trim))) ∧
      ∀ e, Table.render case rows = .error e ↔ Misshapen case rows e := by
  refine ⟨⟨?_, ?_⟩, fun html => render_eq_ok_iff, fun e => render_eq_error_iff⟩
  · rintro ⟨html, hrender⟩
    obtain ⟨c, grid, hgrid, -⟩ := render_eq_ok_iff.mp hrender
    obtain ⟨hne, heven, -⟩ := isGrid_iff.mp hgrid
    exact ⟨hne, c, heven⟩
  · rintro ⟨hne, c, heven⟩
    exact ⟨_, render_of_width case hne heven⟩

end TestCatalog.Proofs
