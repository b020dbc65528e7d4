import TestCatalog.Proofs.Acceptance
import TestCatalog.Proofs.Passages
import TestCatalog.Proofs.PrefixCodes

/-!
# No markup of authors

The sections of an assembled case are escaped text and markup tables of escaped cells, and its steps
are escaped text. So nothing of what an author writes is markup in the catalogue.
-/

namespace TestCatalog.Proofs

/-! ## Marked text -/

/-- Text without markup, and markup tables whose cells are such text. -/
inductive Marked : Text → Prop where
  | text {t : Text} (h : Escaped t) : Marked t
  | table {rows : List (List Text)} (h : ∀ cells ∈ rows, ∀ cell ∈ cells, Escaped cell) :
      Marked (Skeleton.table rows)
  | append {s t : Text} (hs : Marked s) (ht : Marked t) : Marked (s ++ t)

lemma marked_flatMap {α : Type} {xs : List α} {f : α → Text} (h : ∀ x ∈ xs, Marked (f x)) :
    Marked (xs.flatMap f) := by
  induction xs with
  | nil => exact .text (escaped_of_notMem (by simp))
  | cons x xs ih =>
    obtain ⟨hx, hxs⟩ := List.forall_mem_cons.mp h
    rw [List.flatMap_cons]
    exact .append hx (ih hxs)

lemma marked_markup (s : Section) (content : Content) : Marked (content.markup s) := by
  cases content with
  | line text =>
    have hseparator : Escaped s.separator := by
      cases s <;> exact escaped_of_notMem (by decide)
    exact .text (hseparator.append (escaped_escapeMarkup text))
  | table rows =>
    refine .append (.text (escaped_of_notMem (by decide)))
      (.table fun cells hcells cell hcell => ?_)
    obtain ⟨row, -, rfl⟩ := List.mem_map.mp hcells
    obtain ⟨text, -, rfl⟩ := List.mem_map.mp hcell
    exact escaped_escapeMarkup text

theorem marked_render (s : Section) (items : List Item) : Marked (s.render items) := by
  rw [render_eq]
  exact marked_flatMap fun content _ => marked_markup s content

/-! ## Fragments of tables -/

/-- What the tables of the catalogue are made of beside the text of their cells. -/
def fragments : List Text :=
  [Table.openMarkup, Skeleton.rowStart, Skeleton.cellStart, Skeleton.cellEnd, Skeleton.rowEnd,
    Table.closeMarkup]

/-- Takes the words out of a text, from the left, where the first `skip` characters belong to a word
that is taken out already. -/
def takeOut (words : List Text) : (skip : ℕ) → Text → Text
  | _, [] => []
  | skip + 1, _ :: t => takeOut words skip t
  | 0, c :: t =>
    match words.find? fun word => Text.startsWith word (c :: t) with
    | some word => takeOut words (word.length - 1) t
    | none => c :: takeOut words 0 t

def withoutFragments (t : Text) : Text :=
  takeOut fragments 0 t

lemma tag_mem_of_fragment : ∀ word ∈ fragments, '<' ∈ word := by decide

/-- No fragment begins before `t`, in text that does not open a tag, and goes on in `t`. -/
def Fresh (t : Text) : Prop :=
  ∀ u ≠ [], '<' ∉ u → ∀ word ∈ fragments, ¬ word <+: u ++ t

lemma fresh_nil : Fresh [] := by
  intro u _ hu word hword h
  rw [List.append_nil] at h
  exact hu (h.subset (tag_mem_of_fragment word hword))

lemma fresh_text {s t : Text} (hs : '<' ∉ s) (ht : Fresh t) : Fresh (s ++ t) := by
  intro u hne hu word hword h
  rw [← List.append_assoc] at h
  refine ht (u ++ s) (List.append_ne_nil_of_left_ne_nil hne s) ?_ word hword h
  simp [hu, hs]

lemma fresh_fragment {fragment : Text} (hfragment : fragment ∈ fragments) (t : Text) :
    Fresh (fragment ++ t) := by
  -- what is left of a fragment behind blanks before its first tag does not begin like another one
  have hapart : ∀ word ∈ fragments, ∀ k ∈ List.range ((word.takeWhile (· ≠ '<')).length + 1),
      k = 0 ∨ ∀ fragment ∈ fragments,
        ¬ word.drop k <+: fragment ∧ ¬ fragment <+: word.drop k := by decide
  intro u hne hu word hword ⟨rest, h⟩
  rcases List.append_eq_append_iff.mp h with ⟨v, rfl, -⟩ | ⟨v, rfl, hv⟩
  · exact hu (List.mem_append_left v (tag_mem_of_fragment word hword))
  · have hlead : u.length < ((u ++ v).takeWhile (· ≠ '<')).length + 1 := by
      have hplain : ∀ c ∈ u, decide (c ≠ '<') = true :=
        fun c hc => decide_eq_true fun h => hu (h ▸ hc)
      rw [List.takeWhile_append_of_pos hplain, List.length_append]
      omega
    have htail := hapart _ hword u.length (List.mem_range.mpr hlead)
    rw [List.drop_left, List.length_eq_zero_iff] at htail
    exact not_prefix_append (htail.resolve_left hne _ hfragment) t ⟨rest, hv.symm⟩

/-- Where the fragments are taken out of `s`, the text `s'` is left, whatever follows it. -/
def Leaves (s s' : Text) : Prop :=
  ∀ t, Fresh t → Fresh (s ++ t) ∧ takeOut fragments 0 (s ++ t) = s' ++ takeOut fragments 0 t

lemma Leaves.append {s s' t t' : Text} (hs : Leaves s s') (ht : Leaves t t') :
    Leaves (s ++ t) (s' ++ t') := by
  intro u hu
  obtain ⟨hfresh, htaken⟩ := ht u hu
  obtain ⟨hfresh', htaken'⟩ := hs _ hfresh
  rw [List.append_assoc]
  exact ⟨hfresh', by rw [htaken', htaken, List.append_assoc]⟩

lemma leaves_flatMap {α : Type} {xs : List α} {f f' : α → Text}
    (h : ∀ x ∈ xs, Leaves (f x) (f' x)) : Leaves (xs.flatMap f) (xs.flatMap f') := by
  induction xs with
  | nil => exact fun t ht => ⟨ht, rfl⟩
  | cons x xs ih =>
    obtain ⟨hx, hxs⟩ := List.forall_mem_cons.mp h
    rw [List.flatMap_cons, List.flatMap_cons]
    exact hx.append (ih hxs)

lemma leaves_text {s : Text} (hs : '<' ∉ s) : Leaves s s := by
  induction s with
  | nil => exact fun t ht => ⟨ht, rfl⟩
  | cons c s ih =>
    intro t ht
    have hs' : '<' ∉ s := fun hmem => hs (List.mem_cons_of_mem c hmem)
    have hnone : fragments.find? (fun word => Text.startsWith word (c :: (s ++ t))) = none := by
      refine List.find?_eq_none.mpr fun word hword hstart => ?_
      exact ht (c :: s) (List.cons_ne_nil c s) hs word hword (startsWith_iff.mp hstart)
    refine ⟨fresh_text hs ht, ?_⟩
    rw [List.cons_append, takeOut, hnone]
    exact congrArg (c :: ·) (ih hs' t ht).2

lemma takeOut_length (words : List Text) (s t : Text) :
    takeOut words s.length (s ++ t) = takeOut words 0 t := by
  induction s with
  | nil => rfl
  | cons c s ih => exact ih

lemma leaves_fragment {fragment : Text} (hfragment : fragment ∈ fragments) :
    Leaves fragment [] := by
  have hapart : ∀ word ∈ fragments, ∀ word' ∈ fragments, word <+: word' → word = word' := by
    decide +kernel
  intro t _
  have hfind : fragments.find? (fun word => Text.startsWith word (fragment ++ t)) =
      some fragment := by
    have hself : Text.startsWith fragment (fragment ++ t) = true :=
      startsWith_iff.mpr (List.prefix_append _ _)
    have hsome : (fragments.find? fun word => Text.startsWith word (fragment ++ t)).isSome = true :=
      List.find?_isSome.mpr ⟨fragment, hfragment, hself⟩
    obtain ⟨word, hword⟩ := Option.isSome_iff_exists.mp hsome
    have hmem := List.mem_of_find?_eq_some hword
    have hprefix := startsWith_iff.mp (List.find?_eq_some_iff_append.mp hword).1
    rw [hword]
    rcases List.prefix_or_prefix_of_prefix hprefix (List.prefix_append fragment t) with hle | hle
    · exact congrArg some (hapart _ hmem _ hfragment hle)
    · exact congrArg some (hapart _ hfragment _ hmem hle).symm
  refine ⟨fresh_fragment hfragment t, ?_⟩
  obtain ⟨c, rest, rfl⟩ :=
    List.exists_cons_of_ne_nil (List.ne_nil_of_mem (tag_mem_of_fragment _ hfragment))
  rw [List.cons_append] at hfind ⊢
  rw [takeOut, hfind]
  exact takeOut_length fragments rest t

lemma leaves_between {first last s s' : Text} (hfirst : first ∈ fragments)
    (hlast : last ∈ fragments) (h : Leaves s s') : Leaves (first ++ s ++ last) s' := by
  have hall := ((leaves_fragment hfirst).append h).append (leaves_fragment hlast)
  rwa [List.nil_append, List.append_nil] at hall

/-- Taking the fragments out of a table leaves the text of its cells. -/
lemma leaves_table {rows : List (List Text)} (h : ∀ cells ∈ rows, ∀ cell ∈ cells, '<' ∉ cell) :
    Leaves (Skeleton.table rows) (rows.flatMap List.flatten) := by
  refine leaves_between (by decide) (by decide) (leaves_flatMap fun cells hcells => ?_)
  rw [← List.flatMap_id]
  refine leaves_between (by decide) (by decide) (leaves_flatMap fun cell hcell => ?_)
  exact leaves_between (by decide) (by decide) (leaves_text (h cells hcells cell hcell))

/-- Marked text without the fragments of its tables has no markup. -/
theorem Marked.escaped_withoutFragments {t : Text} (h : Marked t) :
    Escaped (withoutFragments t) := by
  have hleaves : ∃ t', Leaves t t' ∧ Escaped t' := by
    have hopen {s : Text} (hs : Escaped s) : '<' ∉ s := fun hmem => hs.plain '<' hmem (by decide)
    induction h with
    | @text t ht => exact ⟨t, leaves_text (hopen ht), ht⟩
    | @table rows hrows =>
      refine ⟨_, leaves_table fun cells hcells cell hcell => hopen (hrows cells hcells cell hcell),
        escaped_flatMap fun cells hcells => ?_⟩
      rw [← List.flatMap_id]
      exact escaped_flatMap (hrows cells hcells)
    | append hs ht ihs iht =>
      obtain ⟨s', hs', hescaped⟩ := ihs
      obtain ⟨t', ht', hescaped'⟩ := iht
      exact ⟨s' ++ t', hs'.append ht', hescaped.append hescaped'⟩
  obtain ⟨t', ht', hescaped⟩ := hleaves
  have htaken := (ht' [] fresh_nil).2
  rw [List.append_nil] at htaken
  rw [withoutFragments, htaken, takeOut, List.append_nil]
  exact hescaped

/-! ## Cases -/

def sectionTexts (case : TestCase) : List Text :=
  [case.description, case.prerequisites, case.testData]

def stepTexts (step : Step) : List Text :=
  [step.description, step.expectedResult, step.notes]

/-- The steps of the case are text without markup, and its sections are marked text. -/
structure EscapedCase (case : TestCase) : Prop where
  step : ∀ step ∈ case.steps, ∀ t ∈ stepTexts step, Escaped t
  marked : ∀ t ∈ sectionTexts case, Marked t
  withoutTables : ∀ t ∈ sectionTexts case, Escaped (withoutFragments t)

variable {a : Assembler}

lemma escapedCase_takenCase (kind : CaseKind) (header : Text) (body : CaseBody) :
    EscapedCase (takenCase a kind header body) := by
  have hmarked : ∀ t ∈ sectionTexts (takenCase a kind header body), Marked t := by
    simp only [sectionTexts, List.mem_cons, List.not_mem_nil, or_false]
    rintro t (rfl | rfl | rfl) <;> exact marked_render _ _
  refine ⟨fun step hstep => ?_, hmarked, fun t ht => (hmarked t ht).escaped_withoutFragments⟩
  obtain ⟨triad, -, rfl⟩ := List.mem_map.mp hstep
  simp only [stepTexts, List.mem_cons, List.not_mem_nil, or_false]
  rintro t (rfl | rfl | rfl) <;> exact escaped_escapeMarkup _

/-- No assembled case has markup that is not of the tables of the catalogue. -/
theorem assemble_escaped {block : Text} {cases : ParsedCases}
    (h : (a.assemble block).value = .ok cases) :
    ∀ case ∈ cases.added ++ cases.updated, EscapedCase case := by
  obtain ⟨ps, hps, rfl⟩ := assemble_eq_ok_iff_passages.mp h
  intro case hcase
  obtain ⟨p, -, rfl⟩ := mem_cases_iff.mp hcase
  exact escapedCase_takenCase p.kind p.header p.body

/-- A draft that talks about markup. -/
def tagsDraft : Draft :=
  { checkoutDraft with
    description := [.line "Tags < 10 & \"bold\" text"]
    testData := [.table ["<b>item</b> | it's"]] }

lemma laidOut_tags : tagsDraft.LaidOut .annotatedFunction :=
  { checkoutDraft_wellFormed.toLaidOut with
    description := by decide
    testData := by decide
    oneLine := by decide }

theorem assemble_escaped_tags :
    (cartAssembler.assemble (draftBlock .annotatedFunction [tagsDraft])).value =
        .ok (.concat [tagsDraft.trimmed.parsed cartAssembler]) ∧
      EscapedCase (tagsDraft.trimmed.case cartAssembler) ∧
      withoutFragments (tagsDraft.trimmed.case cartAssembler).testData =
        "\n\n&lt;b&gt;item&lt;/b&gt;it&#x27;s" := by
  have h : (cartAssembler.assemble (draftBlock .annotatedFunction [tagsDraft])).value =
      .ok (.concat [tagsDraft.trimmed.parsed cartAssembler]) :=
    assemble_single accepts_validation laidOut_tags rfl
  exact ⟨h, assemble_escaped h _ (List.mem_append_left _ List.mem_cons_self), by decide +kernel⟩

end TestCatalog.Proofs
