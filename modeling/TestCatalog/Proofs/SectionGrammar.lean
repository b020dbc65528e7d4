import TestCatalog.Proofs.ContentLines
import TestCatalog.Proofs.DraftReading

/-!
# Section grammar

The grammar of a section says which lines are items, which text an item has in the catalogue and
which number comes next. Any lines either go on as a section up to a blank line or the end, or come
to a first item that is wrong in one of four ways. Reading follows the grammar in both cases.
-/

namespace TestCatalog.Proofs

/-! ## Grammar -/

/-- Whether a line starts with the label of the section and a colon. -/
def IsHeader (s : Section) (line : Text) : Prop :=
  s.label ++ (":" : Text) <+: Text.trim line

/-- Whether a line is neither blank nor opens a table. -/
def IsPlainLine (line : Text) : Prop :=
  ¬ IsBlankLine line ∧ Text.trim line ≠ Table.opener

/-- Whether a line below the one that opens a table belongs to the table as a row. -/
def IsRow (line : Text) : Prop :=
  ¬ IsBlankLine line ∧ Text.trim line ≠ Table.closer

/-- The lines of an item of the section, where `k` is the next number, its text in the catalogue,
and the next number below it. -/
inductive AdmitsItem (s : Section) : (k : ℕ) → List Text → Text → (next : ℕ) → Prop where
  | table {k : ℕ} {first last : Text} {rows : List Text} (hfirst : Text.trim first = Table.opener)
      (hrows : IsTable rows) (hlast : Text.trim last = Table.closer) :
      AdmitsItem s k (first :: (rows ++ [last]))
        ("\n\n" ++ Table.markup (rows.map fun row => escapeMarkup (Text.trim row))) k
  | free {k : ℕ} {line : Text} (hs : s = .description) (hline : IsPlainLine line) :
      AdmitsItem s k [line] (s.separator ++ escapeMarkup (Text.trim line)) k
  | numbered {k : ℕ} {line : Text} (hs : s ≠ .description) (hline : IsPlainLine line)
      (hnumber : Section.numberMark k <+: Text.trim line) :
      AdmitsItem s k [line] (s.separator ++ escapeMarkup (Text.trim line)) (k + 1)
  | dash {k : ℕ} {line : Text} (hs : s ≠ .description) (hline : IsPlainLine line)
      (hdash : IsDashLine line) :
      AdmitsItem s k [line] (s.separator ++ escapeMarkup (Text.trim line)) k

/-- Items one below the other, and their texts. -/
inductive AdmitsItems (s : Section) : (k : ℕ) → List Text → Text → (next : ℕ) → Prop where
  | nil (k : ℕ) : AdmitsItems s k [] [] k
  | cons {k k' next : ℕ} {x y : List Text} {t u : Text} (h : AdmitsItem s k x t k')
      (below : AdmitsItems s k' y u next) : AdmitsItems s k (x ++ y) (t ++ u) next

/-- Why no item begins with the lines, though they do not begin with a blank line. -/
inductive BadItem (s : Section) (case : Text) (k : ℕ) : List Text → GrammarError → Prop where
  | plain {line : Text} (below : List Text) (hs : s ≠ .description) (hline : IsPlainLine line)
      (hnumber : ¬ Section.numberMark k <+: Text.trim line) (hdash : ¬ IsDashLine line) :
      BadItem s case k (line :: below) (.malformedSectionLine k s.label case)
  | unterminated {first : Text} {rows below : List Text} (hfirst : Text.trim first = Table.opener)
      (hrows : ∀ row ∈ rows, IsRow row) (hbelow : ∀ line ∈ below.head?, IsBlankLine line) :
      BadItem s case k (first :: (rows ++ below)) (.unterminatedTable s.label case)
  | empty {first last : Text} (below : List Text) (hfirst : Text.trim first = Table.opener)
      (hlast : Text.trim last = Table.closer) :
      BadItem s case k (first :: last :: below) (.emptyTable case)
  /-- The row below `above` is the first one that has not as many cells as the rows above it. -/
  | uneven {first row last : Text} {above rows : List Text} (below : List Text) {expected : ℕ}
      (hfirst : Text.trim first = Table.opener) (hrows : ∀ r ∈ above ++ row :: rows, IsRow r)
      (hlast : Text.trim last = Table.closer) (hne : above ≠ [])
      (habove : ∀ r ∈ above, (Table.cells r).length = expected)
      (hrow : (Table.cells row).length ≠ expected) :
      BadItem s case k (first :: (above ++ row :: rows ++ last :: below))
        (.unevenTable (escapeMarkup (Text.trim row)) expected (Table.cells row).length
          (above.length + 1) case)

/-- A section at the front of some lines: the text of its items, and the lines below the blank line
that ends it. Where no blank line ends it, it goes on to the last line. -/
inductive AcceptedSection (s : Section) : List Text → Text → (rest : List Text) → Prop where
  | atBlank {header blank : Text} {x rest : List Text} {t : Text} {k : ℕ}
      (hheader : IsHeader s header) (hitems : AdmitsItems s 1 x t k)
      (hblank : IsBlankLine blank) : AcceptedSection s (header :: (x ++ blank :: rest)) t rest
  | atEnd {header : Text} {x : List Text} {t : Text} {k : ℕ}
      (hheader : IsHeader s header) (hitems : AdmitsItems s 1 x t k) :
      AcceptedSection s (header :: x) t []

/-- Lines with no section at their front: they have no header, or a first bad item. -/
inductive RejectedSection (s : Section) (case : Text) : List Text → GrammarError → Prop where
  | header {lines : List Text}
      (hheader : ∀ header ∈ lines.head?, ¬ IsHeader s header) :
      RejectedSection s case lines (.missingSectionHeader s.label case (s = .description))
  | item {header : Text} {x below : List Text} {t : Text} {k : ℕ} {e : GrammarError}
      (hheader : IsHeader s header) (hitems : AdmitsItems s 1 x t k)
      (hbad : BadItem s case k below e) : RejectedSection s case (header :: (x ++ below)) e

variable {s : Section} {case : Text} {k next : ℕ} {x lines rest : List Text} {t : Text}
  {e : GrammarError}

/-! ## Tables -/

lemma takeRows_of_blank {below : List Text} (n : ℕ) (h : ∀ line ∈ below.head?, IsBlankLine line) :
    (Table.takeRows n below).1 = none := by
  cases below with
  | nil => rfl
  | cons line below =>
    have hblank : Text.trim line = [] := h line rfl
    rw [Table.takeRows]
    simp only [hblank, if_true]

/-- The rows of a closed table, and what rendering makes of them. -/
lemma read_closed (label case : Text) {rows : List Text} {last : Text}
    (hrows : ∀ row ∈ rows, IsRow row) (hlast : Text.trim last = Table.closer) (n : ℕ)
    (below : List Text) :
    (Table.read label case ⟨n, rows ++ last :: below⟩).result =
        (Table.render case ((rows.map Text.trim).map escapeMarkup)).map
          (fun _ => rows.map Text.trim) ∧
      (Table.read label case ⟨n, rows ++ last :: below⟩).cursor =
        ⟨n + rows.length + 1, below⟩ := by
  simp only [Table.read, takeRows_append_closer n below hrows hlast]
  exact ⟨trivial, trivial⟩

lemma read_unterminated {label : Text} {rows below : List Text} (hrows : ∀ row ∈ rows, IsRow row)
    (hbelow : ∀ line ∈ below.head?, IsBlankLine line) (n : ℕ) :
    (Table.read label case ⟨n, rows ++ below⟩).result = .error (.unterminatedTable label case) := by
  have htaken : (Table.takeRows n (rows ++ below)).1 = none := by
    rw [takeRows_append n _ hrows, takeRows_of_blank _ hbelow]
    rfl
  rcases hread : Table.takeRows n (rows ++ below) with ⟨taken, c⟩
  rw [hread] at htaken
  cases htaken
  simp only [Table.read, hread]

lemma render_of_uneven {above rows : List Text} {row : Text} {expected : ℕ} (hne : above ≠ [])
    (habove : ∀ r ∈ above, (Table.cells r).length = expected)
    (hrow : (Table.cells row).length ≠ expected) :
    Table.render case (((above ++ row :: rows).map Text.trim).map escapeMarkup) =
      .error (.unevenTable (escapeMarkup (Text.trim row)) expected (Table.cells row).length
        (above.length + 1) case) := by
  have hne' : (above.map Text.trim).map escapeMarkup ≠ [] := by
    simpa using hne
  have hrow' : (Table.cells (escapeMarkup (Text.trim row))).length ≠ expected := by
    rwa [length_cells_escape]
  have hrender := render_uneven case ((rows.map Text.trim).map escapeMarkup) hne'
    (length_cells_shown habove) hrow'
  rw [length_cells_escape, List.length_map, List.length_map] at hrender
  rw [List.map_append, List.map_append, List.map_cons, List.map_cons, hrender]

/-! ## Reading items -/

lemma not_isFreeForm (hs : s ≠ .description) : ¬ s.isFreeForm = true :=
  mt of_decide_eq_true hs

lemma itemsBelow_plain {line : Text} (hline : IsPlainLine line) :
    itemsBelow s case k (Text.trim line) =
      if s.isFreeForm then do
        let items ← sectionItems s case k
        pure (.line (Text.trim line) :: items)
      else if Text.startsWith (Section.numberMark k) (Text.trim line) then do
        let items ← sectionItems s case (k + 1)
        pure (.line (Text.trim line) :: items)
      else if Text.startsWith "-" (Text.trim line) then do
        let items ← sectionItems s case k
        pure (.line (Text.trim line) :: items)
      else Reader.fail (.malformedSectionLine k s.label case) := by
  have hblank : ¬ Text.trim line = [] := hline.1
  rw [itemsBelow, if_neg hblank, if_neg hline.2]

/-- Reading passes the lines of an item, and has its text. -/
lemma read_item (case : Text) (h : AdmitsItem s k x t next) : ∃ item, s.renderItem item = t ∧
    ∀ n below, Prepends [item] (sectionItems s case k ⟨n, x ++ below⟩)
      (sectionItems s case next ⟨n + x.length, below⟩) := by
  -- a line that is no table is followed by the items below it
  have hline {line : Text} {next : ℕ} (hbelow : itemsBelow s case k (Text.trim line) =
      (do let items ← sectionItems s case next; pure (.line (Text.trim line) :: items))) :
      ∃ item, s.renderItem item = s.separator ++ escapeMarkup (Text.trim line) ∧
        ∀ n below, Prepends [item] (sectionItems s case k ⟨n, [line] ++ below⟩)
          (sectionItems s case next ⟨n + [line].length, below⟩) := by
    refine ⟨.line (Text.trim line), rfl, fun n below => ?_⟩
    rw [List.singleton_append, sectionItems_cons, hbelow]
    exact prepends_cons _ _ _
  cases h with
  | @table first last rows hfirst hrows hlast =>
    refine ⟨.table (rows.map Text.trim), ?_, fun n below => ?_⟩
    · rw [Section.renderItem, List.map_map]
      rfl
    · have hread := read_closed s.label case hrows.row hlast (n + 1) below
      have hok : Yields (Table.read s.label case) ⟨n + 1, rows ++ last :: below⟩
          (rows.map Text.trim) ⟨n + 1 + rows.length + 1, below⟩ := by
        refine ⟨?_, hread.2⟩
        rw [hread.1, render_isTable hrows]
        rfl
      have hlines : first :: (rows ++ [last]) ++ below = first :: (rows ++ last :: below) := by simp
      have hlength : n + (first :: (rows ++ [last])).length = n + 1 + rows.length + 1 := by
        simp
        omega
      rw [hlines, sectionItems_cons, hfirst, itemsBelow, if_neg (by decide), if_pos rfl, hlength,
        Prepends, (bind_of_yields hok).1, (bind_of_yields hok).2]
      exact prepends_cons _ _ _
  | free hs hplain =>
    apply hline
    rw [itemsBelow_plain hplain, hs]
    rfl
  | numbered hs hplain hnumber =>
    apply hline
    rw [itemsBelow_plain hplain, if_neg (not_isFreeForm hs), if_pos (startsWith_iff.mpr hnumber)]
  | dash hs hplain hdash =>
    apply hline
    have hnumber : ¬ Text.startsWith (Section.numberMark k) _ :=
      fun hnumber => not_startsWith_dash (e := .action) hnumber hdash
    have hdash : Text.startsWith "-" _ = true := hdash
    rw [itemsBelow_plain hplain, if_neg (not_isFreeForm hs), if_neg hnumber, if_pos hdash]

/-- Reading passes the items that the grammar admits. -/
lemma read_items (case : Text) (h : AdmitsItems s k x t next) : ∃ items, s.render items = t ∧
    ∀ n below, Prepends items (sectionItems s case k ⟨n, x ++ below⟩)
      (sectionItems s case next ⟨n + x.length, below⟩) := by
  induction h with
  | nil k => exact ⟨[], rfl, fun n below => prepends_nil _⟩
  | @cons k k' next x y t u hitem hitems ih =>
    obtain ⟨item, hitem, hread⟩ := read_item case hitem
    obtain ⟨items, hitems, hbelow⟩ := ih
    refine ⟨item :: items, ?_, fun n below => ?_⟩
    · rw [Section.render, List.flatMap_cons, hitem]
      exact congrArg (t ++ ·) hitems
    · rw [List.append_assoc, List.length_append, ← Nat.add_assoc]
      exact (hread n (y ++ below)).append (hbelow (n + x.length) below)

/-- Reading fails at an item that is bad. -/
lemma read_bad {below : List Text} (h : BadItem s case k below e) (n : ℕ) :
    (sectionItems s case k ⟨n, below⟩).result = .error e := by
  -- an error in a table ends the section
  have htable {first : Text} {below : List Text} {e : GrammarError}
      (hfirst : Text.trim first = Table.opener)
      (hread : (Table.read s.label case ⟨n + 1, below⟩).result = .error e) :
      (sectionItems s case k ⟨n, first :: below⟩).result = .error e := by
    rw [sectionItems_cons, hfirst, itemsBelow, if_neg (by decide), if_pos rfl]
    exact (bind_of_error _ hread).1
  cases h with
  | plain below hs hline hnumber hdash =>
    have hdash : ¬ Text.startsWith "-" _ = true := hdash
    rw [sectionItems_cons, itemsBelow_plain hline, if_neg (not_isFreeForm hs),
      if_neg (mt startsWith_iff.mp hnumber), if_neg hdash]
    rfl
  | unterminated hfirst hrows hbelow => exact htable hfirst (read_unterminated hrows hbelow (n + 1))
  | @empty first last below hfirst hlast =>
    apply htable hfirst
    have hrows : ∀ row ∈ ([] : List Text), IsRow row := by simp
    exact (read_closed s.label case hrows hlast (n + 1) below).1
  | @uneven first row last above rows below expected hfirst hrows hlast hne habove hrow =>
    apply htable hfirst
    rw [(read_closed s.label case hrows hlast (n + 1) below).1, render_of_uneven hne habove hrow]
    rfl

/-! ## Lines in general -/

/-- Below a line that opens a table stands a table, or a bad item begins there. -/
lemma table_or_bad (s : Section) (case : Text) (k : ℕ) {first : Text}
    (hfirst : Text.trim first = Table.opener) (below : List Text) :
    (∃ x t rest, first :: below = x ++ rest ∧ x ≠ [] ∧ AdmitsItem s k x t k) ∨
      ∃ e, BadItem s case k (first :: below) e := by
  rcases exists_first_not IsRow below with hall | ⟨rows, last, rest, rfl, hrows, hlast⟩
  · right
    have hbad : BadItem s case k (first :: (below ++ [])) _ :=
      .unterminated hfirst hall (by simp)
    rw [List.append_nil] at hbad
    exact ⟨_, hbad⟩
  by_cases hblank : IsBlankLine last
  · exact .inr ⟨_, .unterminated hfirst hrows (by simpa using hblank)⟩
  have hcloser : Text.trim last = Table.closer := by
    by_contra hother
    exact hlast ⟨hblank, hother⟩
  cases rows with
  | nil => exact .inr ⟨_, .empty rest hfirst hcloser⟩
  | cons row rows =>
    rcases exists_first_not
        (fun r => (Table.cells r).length = (Table.cells row).length) (row :: rows) with
      heven | ⟨above, bad, others, hsplit, habove, hbad⟩
    · left
      refine ⟨first :: (row :: rows ++ [last]), _, rest, by simp, List.cons_ne_nil _ _,
        .table hfirst ⟨List.cons_ne_nil _ _, hrows, heven⟩ hcloser⟩
    · right
      rw [hsplit] at hrows ⊢
      refine ⟨_, .uneven rest hfirst hrows hcloser ?_ habove hbad⟩
      rintro rfl
      obtain ⟨rfl, -⟩ := List.cons.inj hsplit
      exact hbad rfl

/-- A line that is not blank begins an item or a bad one. -/
lemma item_or_bad (s : Section) (case : Text) (k : ℕ) {line : Text} (hline : ¬ IsBlankLine line)
    (below : List Text) :
    (∃ x t next rest, line :: below = x ++ rest ∧ x ≠ [] ∧ AdmitsItem s k x t next) ∨
      ∃ e, BadItem s case k (line :: below) e := by
  by_cases hopener : Text.trim line = Table.opener
  · rcases table_or_bad s case k hopener below with ⟨x, t, rest, hlines, hne, hitem⟩ | hbad
    · exact .inl ⟨x, t, k, rest, hlines, hne, hitem⟩
    · exact .inr hbad
  have hplain : IsPlainLine line := ⟨hline, hopener⟩
  have hone : ([line] : List Text) ≠ [] := List.cons_ne_nil _ _
  by_cases hs : s = .description
  · exact .inl ⟨[line], _, _, below, rfl, hone, .free hs hplain⟩
  by_cases hnumber : Section.numberMark k <+: Text.trim line
  · exact .inl ⟨[line], _, _, below, rfl, hone, .numbered hs hplain hnumber⟩
  by_cases hdash : IsDashLine line
  · exact .inl ⟨[line], _, _, below, rfl, hone, .dash hs hplain hdash⟩
  · exact .inr ⟨_, .plain below hs hplain hnumber hdash⟩

/-- Any lines go on as items up to a blank line or the end, or up to a bad item. -/
lemma items_or_bad (s : Section) (case : Text) (k : ℕ) (lines : List Text) :
    ∃ x t next below, lines = x ++ below ∧ AdmitsItems s k x t next ∧
      ((∀ line ∈ below.head?, IsBlankLine line) ∨ ∃ e, BadItem s case next below e) := by
  induction hlen : lines.length using Nat.strongRecOn generalizing k lines with
  | ind len ih =>
    subst hlen
    cases lines with
    | nil => exact ⟨[], [], k, [], rfl, .nil k, .inl (by simp)⟩
    | cons line below =>
      by_cases hblank : IsBlankLine line
      · exact ⟨[], [], k, line :: below, rfl, .nil k, .inl (by simpa using hblank)⟩
      rcases item_or_bad s case k hblank below with ⟨x, t, next, rest, hlines, hne, hitem⟩ | hbad
      · have hlt : rest.length < (line :: below).length := by
          have hpos := List.length_pos_iff.mpr hne
          rw [hlines, List.length_append]
          omega
        obtain ⟨y, u, last, left, rfl, hitems, hend⟩ := ih rest.length hlt next rest rfl
        refine ⟨x ++ y, t ++ u, last, left, ?_, .cons hitem hitems, hend⟩
        rw [hlines, List.append_assoc]
      · exact ⟨[], [], k, line :: below, rfl, .nil k, .inr hbad⟩

lemma accepted_or_rejected (s : Section) (case : Text) (lines : List Text) :
    (∃ t rest, AcceptedSection s lines t rest) ∨ ∃ e, RejectedSection s case lines e := by
  cases lines with
  | nil => exact .inr ⟨_, .header (by simp)⟩
  | cons header lines =>
    by_cases hheader : IsHeader s header
    · obtain ⟨x, t, next, below, rfl, hitems, hend | ⟨e, hbad⟩⟩ := items_or_bad s case 1 lines
      · left
        cases below with
        | nil =>
          refine ⟨t, [], ?_⟩
          rw [List.append_nil]
          exact .atEnd hheader hitems
        | cons blank rest => exact ⟨t, rest, .atBlank hheader hitems (hend blank rfl)⟩
      · exact .inr ⟨e, .item hheader hitems hbad⟩
    · exact .inr ⟨_, .header (by simpa using hheader)⟩

/-! ## Sections -/

lemma expectHeader_missing {label : Text} {first : Bool}
    (h : ∀ header ∈ lines.head?, ¬ label ++ (":" : Text) <+: Text.trim header) (n : ℕ) :
    (Section.expectHeader label case first ⟨n, lines⟩).result =
      .error (.missingSectionHeader label case first) := by
  have hfail (line : Text) (c : Cursor) (hyields : Yields Reader.nextTrimmed ⟨n, lines⟩ line c)
      (hline : ¬ label ++ (":" : Text) <+: line) :
      (Section.expectHeader label case first ⟨n, lines⟩).result =
        .error (.missingSectionHeader label case first) := by
    have hother : Section.isHeader label line = false :=
      Bool.eq_false_iff.mpr (mt startsWith_iff.mp hline)
    rw [Section.expectHeader, result_bind_of_yields hyields, hother]
    rfl
  cases lines with
  | nil =>
    apply hfail [] ⟨n, []⟩ ⟨rfl, rfl⟩
    intro hprefix
    have hnil := List.prefix_nil.mp hprefix
    exact List.append_ne_nil_of_right_ne_nil label (List.cons_ne_nil _ _) hnil
  | cons header below =>
    exact hfail (Text.trim header) ⟨n + 1, below⟩ (yields_nextTrimmed n header below)
      (h header rfl)

lemma read_header (case : Text) {header : Text} (h : IsHeader s header) (n : ℕ)
    (below : List Text) :
    (s.read case ⟨n, header :: below⟩).result =
        (sectionItems s case 1 ⟨n + 1, below⟩).result ∧
      (s.read case ⟨n, header :: below⟩).cursor =
        (sectionItems s case 1 ⟨n + 1, below⟩).cursor := by
  have hheader : Section.isHeader s.label (Text.trim header) = true := startsWith_iff.mpr h
  have htakes : Takes (Section.expectHeader s.label case (s = .description)) [header] () :=
    takes_expectHeader _ hheader
  exact bind_of_yields (htakes.yields (Section.forward_expectHeader _ _ _) n below)

/-- Reading succeeds on a section that the grammar accepts: it has the texts of the items, and stops
below the blank line that ends the section, or at the end. -/
lemma read_accepted (case : Text) (h : AcceptedSection s lines t rest) (n : ℕ) :
    ∃ items, Yields (s.read case) ⟨n, lines⟩ items ⟨n + (lines.length - rest.length), rest⟩ ∧
      s.render items = t := by
  -- below the items the reader takes a blank line, or is at the end
  have hend {header : Text} {x below : List Text} {k : ℕ} {c : Cursor} (hheader : IsHeader s header)
      (hitems : AdmitsItems s 1 x t k)
      (hbelow : Yields (sectionItems s case k) ⟨n + 1 + x.length, below⟩ [] c) :
      ∃ items, Yields (s.read case) ⟨n, header :: (x ++ below)⟩ items c ∧ s.render items = t := by
    obtain ⟨items, htext, hread⟩ := read_items case hitems
    obtain ⟨hresult, hcursor⟩ := (hread (n + 1) below).of_nil hbelow.1 hbelow.2
    obtain ⟨hresult', hcursor'⟩ := read_header case hheader n (x ++ below)
    exact ⟨items, ⟨hresult'.trans hresult, hcursor'.trans hcursor⟩, htext⟩
  cases h with
  | @atBlank header blank x rest t k hheader hitems hblank =>
    apply hend hheader hitems
    have hlength : n + ((header :: (x ++ blank :: rest)).length - rest.length) =
        n + 1 + x.length + 1 := by
      simp
      omega
    have hblank : itemsBelow s case k (Text.trim blank) = pure [] := if_pos hblank
    rw [Yields, sectionItems_cons, hblank, hlength]
    exact ⟨rfl, rfl⟩
  | @atEnd header x t k hheader hitems =>
    have hlength : n + ((header :: x).length - ([] : List Text).length) = n + 1 + x.length := by
      simp
      omega
    have hbelow : Yields (sectionItems s case k) ⟨n + 1 + x.length, []⟩ []
        ⟨n + 1 + x.length, []⟩ := by
      rw [Yields, sectionItems_nil]
      exact ⟨rfl, rfl⟩
    have hread := hend hheader hitems hbelow
    rwa [List.append_nil, ← hlength] at hread

/-- Reading fails on lines that the grammar rejects. -/
lemma read_rejected (h : RejectedSection s case lines e) (n : ℕ) :
    (s.read case ⟨n, lines⟩).result = .error e := by
  cases h with
  | header hheader => exact (bind_of_error _ (expectHeader_missing hheader n)).1
  | @item header x below t k e hheader hitems hbad =>
    obtain ⟨items, -, hread⟩ := read_items case hitems
    rw [(read_header case hheader n (x ++ below)).1]
    exact (hread (n + 1) below).of_error (read_bad hbad _)

/-- Reading a section accepts exactly its grammar. It succeeds with the text and stops at the place
that the grammar gives, and fails with the error that the grammar gives. -/
theorem read_section_iff (s : Section) (case : Text) (n : ℕ) (lines : List Text) :
    (∀ text c, (∃ items, Yields (s.read case) ⟨n, lines⟩ items c ∧ s.render items = text) ↔
      ∃ rest, AcceptedSection s lines text rest ∧
        c = ⟨n + (lines.length - rest.length), rest⟩) ∧
    ∀ e, (s.read case ⟨n, lines⟩).result = .error e ↔ RejectedSection s case lines e := by
  apply yields_iff_and_error_iff
  · rintro text c ⟨rest, haccepted, rfl⟩
    exact read_accepted case haccepted n
  · exact fun hrejected => read_rejected hrejected n
  · rcases accepted_or_rejected s case lines with ⟨text, rest, haccepted⟩ | hrejected
    · exact .inl ⟨text, _, rest, haccepted, rfl⟩
    · exact .inr hrejected

end TestCatalog.Proofs
