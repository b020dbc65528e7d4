import TestCatalog.Proofs.Drafts
import TestCatalog.Proofs.Runs
import TestCatalog.Proofs.TableShapes

/-!
# Reading drafts

Each reader takes exactly the lines that are written for its part of a draft, whatever follows
them, and gives that part back.
-/

namespace TestCatalog.Proofs

variable {α β : Type}

lemma takes_pure (a : α) : Takes (pure a : Reader α) [] a :=
  fun n _ => ⟨n, rfl, rfl⟩

lemma takes_map {r : Reader α} {ls : List Text} {a : α} (hr : Takes r ls a) (f : α → β) :
    Takes (do let x ← r; pure (f x)) ls (f a) := by
  have h : Takes (r >>= fun x => pure (f x)) (ls ++ []) (f a) := takes_bind hr (takes_pure (f a))
  rwa [List.append_nil] at h

lemma takes_noteAll (events : List Event) : Takes (Reader.noteAll events) [] () :=
  fun n _ => ⟨n, rfl, rfl⟩

lemma takes_nextTrimmed (line : Text) : Takes Reader.nextTrimmed [line] (Text.trim line) :=
  fun n rest => ⟨n + 1, yields_nextTrimmed n line rest⟩

/-! ## Tables -/

lemma takeRows_append {rows : List Text} (n : ℕ) (below : List Text)
    (h : ∀ row ∈ rows, Text.trim row ≠ [] ∧ Text.trim row ≠ Table.closer) :
    Table.takeRows n (rows ++ below) =
      ((Table.takeRows (n + rows.length) below).1.map (rows.map Text.trim ++ ·),
        (Table.takeRows (n + rows.length) below).2) := by
  induction rows generalizing n with
  | nil => simp
  | cons row rows ih =>
    obtain ⟨hblank, hcloser⟩ := h row List.mem_cons_self
    rw [List.cons_append, Table.takeRows]
    simp only [hblank, hcloser, if_false]
    rw [ih (n + 1) fun row' hrow' => h row' (List.mem_cons_of_mem row hrow'), List.length_cons,
      Nat.add_right_comm, Nat.add_assoc]
    simp [Option.map_map, Function.comp_def]

lemma takeRows_append_closer {rows : List Text} {last : Text} (n : ℕ) (rest : List Text)
    (h : ∀ row ∈ rows, Text.trim row ≠ [] ∧ Text.trim row ≠ Table.closer)
    (hlast : Text.trim last = Table.closer) :
    Table.takeRows n (rows ++ last :: rest) =
      (some (rows.map Text.trim), ⟨n + rows.length + 1, rest⟩) := by
  have hblank : ¬ Table.closer = ([] : Text) := by decide
  rw [takeRows_append n _ h, Table.takeRows]
  simp [hlast, hblank]

lemma length_cells_escape (row : Text) :
    (Table.cells (escapeMarkup (Text.trim row))).length = (Table.cells row).length := by
  have hcells := congrArg List.length (cellTexts_trim row)
  rw [cellTexts, cellTexts, List.length_map, List.length_map] at hcells
  rw [cells_escapeMarkup, List.length_map, hcells]

/-- Rows that have as many cells each have so as the catalogue shows them. -/
lemma length_cells_shown {expected : ℕ} {rows : List Text}
    (h : ∀ row ∈ rows, (Table.cells row).length = expected) :
    ∀ shown ∈ (rows.map Text.trim).map escapeMarkup, (Table.cells shown).length = expected := by
  intro shown hshown
  rw [List.map_map] at hshown
  obtain ⟨written, hwritten, rfl⟩ := List.mem_map.mp hshown
  rw [Function.comp_apply, length_cells_escape]
  exact h written hwritten

lemma render_isTable {case : Text} {rows : List Text} (h : IsTable rows) :
    Table.render case ((rows.map Text.trim).map escapeMarkup) =
      .ok (Table.markup ((rows.map Text.trim).map escapeMarkup)) := by
  have hne : (rows.map Text.trim).map escapeMarkup ≠ [] := by
    simpa using h.ne_nil
  exact render_even case hne (length_cells_shown h.even)

lemma takes_table (label case : Text) {rows : List Text} (h : IsTable rows) :
    Takes (Table.read label case) (rows.map Text.trimEnd ++ [Table.closer])
      (rows.map Text.trim) := by
  intro n rest
  have hrows : Table.takeRows n (rows.map Text.trimEnd ++ Table.closer :: rest) =
      (some (rows.map Text.trim), ⟨n + rows.length + 1, rest⟩) := by
    rw [takeRows_append_closer n rest (by simpa [trim_trimEnd] using h.row) (by decide)]
    simp [Function.comp_def, trim_trimEnd]
  refine ⟨n + rows.length + 1, ?_⟩
  rw [List.append_assoc, List.singleton_append]
  exact yields_readTable_iff.mpr ⟨hrows, render_isTable h⟩

/-! ## Marks -/

lemma exists_numberMark (k : ℕ) :
    ∃ c digits, Section.numberMark k = c :: digits ++ [')'] ∧ c.isDigit = true := by
  obtain ⟨c, digits, h⟩ := List.exists_cons_of_ne_nil (Nat.toDigits_ne_nil (n := k) (b := 10))
  refine ⟨c, digits, by rw [Section.numberMark, Text.ofNat, h]; rfl, ?_⟩
  exact Nat.isDigit_of_mem_toDigits (by decide) (by decide) (h ▸ List.mem_cons_self)

lemma bareEnds_mark (e : StepElement) (k : ℕ) : BareEnds (e.mark k) := by
  cases e with
  | action =>
    obtain ⟨c, digits, h, hc⟩ := exists_numberMark k
    rw [StepElement.mark, h]
    refine ⟨?_, ?_⟩
    · simp [not_isBlank_of_isDigit hc]
    · rw [List.getLast?_concat]
      simp [show Text.isBlank ')' = false by decide]
  | expected => exact show BareEnds "ER:" by decide
  | notes => exact show BareEnds "Notes:" by decide

lemma head?_of_startsWith {c : Char} {start t : Text} (h : Text.startsWith (c :: start) t) :
    t.head? = some c := by
  obtain ⟨rest, rfl⟩ := startsWith_iff.mp h
  rfl

/-- The three marks of a step and the dash differ in their first characters. -/
lemma not_startsWith_dash {e : StepElement} {k : ℕ} {t : Text}
    (h : Text.startsWith (e.mark k) t) : ¬ Text.startsWith "-" t := by
  intro hdash
  have hhead : t.head? = some '-' := head?_of_startsWith hdash
  cases e with
  | action =>
    obtain ⟨c, digits, hmark, hc⟩ := exists_numberMark k
    rw [StepElement.mark, hmark] at h
    have hhead' := head?_of_startsWith h
    rw [hhead] at hhead'
    cases hhead'
    exact absurd hc (by decide)
  | expected =>
    have hhead' : t.head? = some 'E' := head?_of_startsWith h
    rw [hhead] at hhead'
    exact absurd hhead' (by decide)
  | notes =>
    have hhead' : t.head? = some 'N' := head?_of_startsWith h
    rw [hhead] at hhead'
    exact absurd hhead' (by decide)

/-! ## Sections -/

/-- An item as its section is read: without the blanks at the ends of its lines. -/
def readItem : Item → Item
  | .line text => .line (Text.trim text)
  | .table rows => .table (rows.map Text.trim)

variable {s : Section} {case : Text} {k : ℕ} {ls : List Text} {items : List Item}

lemma takes_sectionItems_cons {line : Text}
    (h : Takes (itemsBelow s case k (Text.trim line)) ls items) :
    Takes (sectionItems s case k) (line :: ls) items := by
  intro n rest
  obtain ⟨m, hm⟩ := h (n + 1) rest
  refine ⟨m, ?_⟩
  rw [List.cons_append, Yields, sectionItems_cons]
  exact hm

lemma takes_sectionItems_blank : Takes (sectionItems s case k) [[]] [] := by
  refine takes_sectionItems_cons ?_
  rw [trim_eq_nil_iff.mpr allBlank_nil, itemsBelow, if_pos rfl]
  exact takes_pure []

lemma takes_sectionItems_table {rows : List Text} (hrows : IsTable rows)
    (h : Takes (sectionItems s case k) ls items) :
    Takes (sectionItems s case k) ((itemLines (.table rows)).map Text.trimEnd ++ ls)
      (readItem (.table rows) :: items) := by
  have hopener : Text.trim (Text.trimEnd Table.opener) = Table.opener := by decide
  have hcloser : Text.trimEnd Table.closer = Table.closer := by decide
  have hlines : (itemLines (.table rows)).map Text.trimEnd ++ ls =
      Text.trimEnd Table.opener :: ((rows.map Text.trimEnd ++ [Table.closer]) ++ ls) := by
    simp [itemLines, hcloser]
  rw [hlines]
  refine takes_sectionItems_cons ?_
  rw [hopener, itemsBelow, if_neg (by decide), if_pos rfl]
  exact takes_bind (takes_table _ _ hrows) (takes_map h _)

lemma takes_sectionItems_line {text : Text} {k' : ℕ}
    (hbelow : itemsBelow s case k (Text.trim text) =
      (do let items ← sectionItems s case k'; pure (.line (Text.trim text) :: items)))
    (h : Takes (sectionItems s case k') ls items) :
    Takes (sectionItems s case k) ((itemLines (.line text)).map Text.trimEnd ++ ls)
      (readItem (.line text) :: items) := by
  refine takes_sectionItems_cons ?_
  rw [trim_trimEnd, hbelow]
  exact takes_map h _

lemma takes_free (h : ∀ item ∈ items, IsFree item) :
    Takes (sectionItems .description case k)
      ((items.flatMap itemLines).map Text.trimEnd ++ [[]]) (items.map readItem) := by
  induction items with
  | nil => exact takes_sectionItems_blank
  | cons item items ih =>
    have hitem := h item List.mem_cons_self
    have ih := ih fun other hother => h other (List.mem_cons_of_mem item hother)
    rw [List.flatMap_cons, List.map_append, List.append_assoc, List.map_cons]
    cases item with
    | line text =>
      obtain ⟨hblank, hopener⟩ := hitem
      refine takes_sectionItems_line ?_ ih
      rw [itemsBelow, if_neg hblank, if_neg hopener]
      rfl
    | table rows => exact takes_sectionItems_table hitem ih

lemma takes_listing (hs : s.isFreeForm = false) (h : IsListing k items) :
    Takes (sectionItems s case k)
      ((items.flatMap itemLines).map Text.trimEnd ++ [[]]) (items.map readItem) := by
  induction items generalizing k with
  | nil => exact takes_sectionItems_blank
  | cons item items ih =>
    rw [List.flatMap_cons, List.map_append, List.append_assoc, List.map_cons]
    cases item with
    | table rows =>
      obtain ⟨hrows, h⟩ := h
      exact takes_sectionItems_table hrows (ih h)
    | line text =>
      -- neither a numbered line nor a dash line is blank or opens a table
      have hother {c : Char} (hhead : (Text.trim text).head? = some c) (hc : c ≠ '*') :
          Text.trim text ≠ [] ∧ Text.trim text ≠ Table.opener := by
        refine ⟨fun hblank => ?_, fun hopener => ?_⟩
        · rw [hblank] at hhead
          cases hhead
        · rw [hopener] at hhead
          cases hhead
          exact hc rfl
      rcases h with ⟨hnumber, h⟩ | ⟨hdash, h⟩
      · obtain ⟨c, digits, hmark, hc⟩ := exists_numberMark k
        have hhead : (Text.trim text).head? = some c := head?_of_startsWith (hmark ▸ hnumber)
        obtain ⟨hblank, hopener⟩ := hother hhead fun hstar => by
          rw [hstar] at hc
          exact absurd hc (by decide)
        refine takes_sectionItems_line ?_ (ih h)
        rw [itemsBelow, if_neg hblank, if_neg hopener, hs, if_neg (by decide), if_pos hnumber]
      · have hnumber : ¬ Text.startsWith (Section.numberMark k) (Text.trim text) :=
          fun hnumber => not_startsWith_dash (e := .action) hnumber hdash
        obtain ⟨hblank, hopener⟩ := hother (head?_of_startsWith hdash) (by decide)
        refine takes_sectionItems_line ?_ (ih h)
        rw [itemsBelow, if_neg hblank, if_neg hopener, hs, if_neg (by decide), if_neg hnumber,
          if_pos hdash]

lemma takes_expectHeader {label line : Text} (first : Bool)
    (h : Section.isHeader label (Text.trim line) = true) :
    Takes (Section.expectHeader label case first) [line] () := by
  refine takes_bind (takes_nextTrimmed line) ?_
  rw [if_pos h]
  exact takes_pure ()

lemma takes_section (h : Takes (sectionItems s case 1)
    ((items.flatMap itemLines).map Text.trimEnd ++ [[]]) (items.map readItem)) :
    Takes (s.read case) ((sectionLines s items).map Text.trimEnd) (items.map readItem) := by
  have hheader : Section.isHeader s.label (Text.trim (Text.trimEnd (s.label ++ ":"))) = true := by
    cases s <;> decide
  have hblank : Text.trimEnd [] = [] := rfl
  have hlines : (sectionLines s items).map Text.trimEnd = [Text.trimEnd (s.label ++ ":")] ++
      ((items.flatMap itemLines).map Text.trimEnd ++ [[]]) := by
    simp [sectionLines, hblank]
  rw [hlines]
  exact takes_bind (takes_expectHeader _ hheader) h

/-! ## Steps -/

def elementHead (mark : Text) (lines : List Text) : Text :=
  mark ++ " " ++ lines.headD []

lemma mark_ne_nil (e : StepElement) (k : ℕ) : e.mark k ≠ [] := by
  cases e with
  | action =>
    obtain ⟨c, digits, h, -⟩ := exists_numberMark k
    rw [StepElement.mark, h]
    simp
  | expected => exact show "ER:".toList ≠ [] by decide
  | notes => exact show "Notes:".toList ≠ [] by decide

lemma trim_elementHead (e : StepElement) (k : ℕ) (lines : List Text) :
    Text.trim (elementHead (e.mark k) lines) =
      e.mark k ++ Text.trimEnd (" " ++ lines.headD []) := by
  rw [elementHead, List.append_assoc,
    trim_append_of_bareEnds (bareEnds_mark e k) (mark_ne_nil e k)]

lemma startsWith_elementHead (e : StepElement) (k : ℕ) (lines : List Text) :
    Text.startsWith (e.mark k) (Text.trim (elementHead (e.mark k) lines)) :=
  startsWith_iff.mpr (trim_elementHead e k lines ▸ List.prefix_append _ _)

lemma elementHead_ne_nil (e : StepElement) (k : ℕ) (lines : List Text) :
    Text.trim (elementHead (e.mark k) lines) ≠ [] := by
  rw [trim_elementHead]
  exact List.append_ne_nil_of_left_ne_nil (mark_ne_nil e k) _

lemma takeContinuation_append {dashes : List Text} (n : ℕ) (below : List Text)
    (hdashes : ∀ line ∈ dashes, Text.startsWith "-" (Text.trim line)) :
    Steps.takeContinuation n (dashes ++ below) =
      (dashes.map Text.trim ++ (Steps.takeContinuation (n + dashes.length) below).1,
        (Steps.takeContinuation (n + dashes.length) below).2) := by
  induction dashes generalizing n with
  | nil => rfl
  | cons line dashes ih =>
    rw [List.cons_append, Steps.takeContinuation]
    simp only [hdashes line List.mem_cons_self, if_true]
    rw [ih (n + 1) fun other hother => hdashes other (List.mem_cons_of_mem line hother),
      List.length_cons, Nat.add_right_comm, Nat.add_assoc]
    rfl

lemma takeContinuation_append_of_dashes {dashes : List Text} {next : Text} (n : ℕ)
    (rest : List Text) (hdashes : ∀ line ∈ dashes, Text.startsWith "-" (Text.trim line))
    (hnext : ¬ Text.startsWith "-" (Text.trim next)) :
    Steps.takeContinuation n (dashes ++ next :: rest) =
      (dashes.map Text.trim, Text.trim next, ⟨n + dashes.length + 1, rest⟩) := by
  have hend : Steps.takeContinuation (n + dashes.length) (next :: rest) =
      ([], Text.trim next, ⟨n + dashes.length + 1, rest⟩) := if_neg hnext
  rw [takeContinuation_append n _ hdashes, hend, List.append_nil]

lemma takes_readElement {e : StepElement} {line next : Text} {lines : List Text}
    (h : IsElement lines) (hline : Text.trim line = Text.trim (elementHead (e.mark k) lines))
    (hnext : ¬ Text.startsWith "-" (Text.trim next)) :
    Takes (Steps.readElement e k line case) (lines.tail.map Text.trimEnd ++ [next])
      (lines.map Text.trim, Text.trim next) := by
  obtain ⟨hne, hdashes⟩ := h
  obtain ⟨first, more, rfl⟩ := List.exists_cons_of_ne_nil hne
  intro n rest
  have hmark : Text.stripStart? (e.mark k) (Text.trim line) =
      some (Text.trimEnd (" " ++ first)) := by
    rw [hline, trim_elementHead, stripStart?_append]
    rfl
  have hfirst : Text.trim (Text.trimEnd (" " ++ first)) = Text.trim first := by
    rw [trim_trimEnd, trim_append_left (by decide)]
  have hdashes' : ∀ line ∈ more.map Text.trimEnd, Text.startsWith "-" (Text.trim line) := by
    simpa [trim_trimEnd] using hdashes
  have hmore := takeContinuation_append_of_dashes n rest hdashes' hnext
  rw [List.tail_cons, List.append_assoc, List.singleton_append]
  refine ⟨n + (more.map Text.trimEnd).length + 1, yields_bind_iff.mpr
    ⟨_, _, yields_require_iff.mpr ⟨hmark, rfl⟩, ?_⟩⟩
  simp only [Yields, hmore, hfirst]
  simp [Function.comp_def, trim_trimEnd]

def triadBelow (count : ℕ) (t : Triad) : List Text :=
  t.action.tail ++ [elementHead (StepElement.expected.mark count) t.expected] ++
    (t.expected.tail ++ [elementHead (StepElement.notes.mark count) t.notes] ++ t.notes.tail)

lemma triadLines_eq (count : ℕ) (t : Triad) :
    triadLines count t =
      elementHead (StepElement.action.mark count) t.action :: triadBelow count t := by
  simp [triadLines, triadBelow, elementLines, elementHead]

lemma takes_readTriad {t : Triad} {line next : Text}
    (h : IsElement t.action ∧ IsElement t.expected ∧ IsElement t.notes)
    (hline : Text.trim line = Text.trim (elementHead (StepElement.action.mark k) t.action))
    (hnext : ¬ Text.startsWith "-" (Text.trim next)) :
    Takes (Steps.readTriad case k line) ((triadBelow k t).map Text.trimEnd ++ [next])
      (trimmedTriad t, Text.trim next) := by
  obtain ⟨haction, hexpected, hnotes⟩ := h
  have hstart (e : StepElement) (lines : List Text) :
      ¬ Text.startsWith "-" (Text.trim (Text.trimEnd (elementHead (e.mark k) lines))) := by
    rw [trim_trimEnd]
    exact not_startsWith_dash (startsWith_elementHead e k lines)
  have hlines : (triadBelow k t).map Text.trimEnd ++ [next] =
      (t.action.tail.map Text.trimEnd ++
        [Text.trimEnd (elementHead (StepElement.expected.mark k) t.expected)]) ++
      ((t.expected.tail.map Text.trimEnd ++
        [Text.trimEnd (elementHead (StepElement.notes.mark k) t.notes)]) ++
      ((t.notes.tail.map Text.trimEnd ++ [next]) ++ [])) := by
    simp [triadBelow]
  rw [hlines]
  refine takes_bind (takes_readElement haction hline (hstart .expected _)) ?_
  refine takes_bind (takes_readElement hexpected ?_ (hstart .notes _)) ?_
  · rw [trim_trim, trim_trimEnd]
  refine takes_bind (takes_readElement hnotes ?_ hnext) (takes_pure _)
  rw [trim_trim, trim_trimEnd]

lemma takes_stepTriads {t : Triad} {ts : List Triad} {line : Text}
    (h : ∀ u ∈ t :: ts, IsElement u.action ∧ IsElement u.expected ∧ IsElement u.notes)
    (hline : Text.trim line = Text.trim (elementHead (StepElement.action.mark k) t.action)) :
    Takes (stepTriads case k line)
      ((triadBelow k t ++ stepLines (k + 1) ts).map Text.trimEnd ++ [[]])
      ((t :: ts).map trimmedTriad) := by
  induction ts generalizing k t line with
  | nil =>
    have hdash : ¬ Text.startsWith "-" (Text.trim []) := by decide
    rw [stepTriads_eq, stepLines, List.append_nil, ← List.append_nil (_ ++ [[]])]
    refine takes_bind (takes_readTriad (h t List.mem_cons_self) hline hdash) ?_
    exact takes_bind (takes_noteAll _) (takes_map (takes_pure []) _)
  | cons u us ih =>
    let next := Text.trimEnd (elementHead (StepElement.action.mark (k + 1)) u.action)
    have hnext : Text.trim next =
        Text.trim (elementHead (StepElement.action.mark (k + 1)) u.action) := trim_trimEnd _
    have hdash : ¬ Text.startsWith "-" (Text.trim next) := by
      rw [hnext]
      exact not_startsWith_dash (startsWith_elementHead .action (k + 1) u.action)
    have hne : Text.trim next ≠ [] := hnext ▸ elementHead_ne_nil .action (k + 1) u.action
    have hlines : (triadBelow k t ++ stepLines (k + 1) (u :: us)).map Text.trimEnd ++ [[]] =
        ((triadBelow k t).map Text.trimEnd ++ [next]) ++ ([] ++
          ((triadBelow (k + 1) u ++ stepLines (k + 2) us).map Text.trimEnd ++ [[]])) := by
      simp [stepLines, triadLines_eq, next]
    have hline' : Text.trim (Text.trim next) =
        Text.trim (elementHead (StepElement.action.mark (k + 1)) u.action) := by
      rw [trim_trim, hnext]
    have ih := ih (fun v hv => h v (List.mem_cons_of_mem t hv)) hline'
    rw [hlines, stepTriads_eq]
    refine takes_bind (takes_readTriad (h t List.mem_cons_self) hline hdash) ?_
    refine takes_bind (takes_noteAll _) (takes_map ?_ _)
    rw [triadsAfter, if_neg hne]
    exact ih

lemma takes_steps {ts : List Triad} (hne : ts ≠ [])
    (h : ∀ u ∈ ts, IsElement u.action ∧ IsElement u.expected ∧ IsElement u.notes) :
    Takes (Steps.read case) (((Steps.label ++ ":") :: stepLines 1 ts ++ [[]]).map Text.trimEnd)
      (ts.map trimmedTriad) := by
  obtain ⟨t, us, rfl⟩ := List.exists_cons_of_ne_nil hne
  have hlines : ((Steps.label ++ ":") :: stepLines 1 (t :: us) ++ [[]]).map Text.trimEnd =
      [Text.trimEnd (Steps.label ++ ":")] ++
        ([Text.trimEnd (elementHead (StepElement.action.mark 1) t.action)] ++
        ((triadBelow 1 t ++ stepLines 2 us).map Text.trimEnd ++ [[]])) := by
    have hblank : Text.trimEnd [] = [] := rfl
    simp [stepLines, triadLines_eq, hblank]
  rw [hlines]
  refine takes_bind (takes_expectHeader false (by decide)) ?_
  refine takes_bind (takes_nextTrimmed _) ?_
  exact takes_stepTriads h (by rw [trim_trim, trim_trimEnd])

end TestCatalog.Proofs
