import TestCatalog.Assembly.Body
import TestCatalog.Proofs.Journals

/-!
# Reports of readers

What a reader reports is told by a property of the events: the properties of single reports pass
through sequences. The readers of the parts of a body report nothing but tables and warnings.
-/

namespace TestCatalog.Proofs

/-- Reports of events with the property, and nothing else. -/
def OnlyReports (P : Event → Prop) (journal : Journal) : Prop :=
  ∀ entry ∈ journal, ∃ e : Event, entry = .report e ∧ P e

variable {P Q : Event → Prop} {journal journal' : Journal}

/-! ## Journals -/

lemma onlyReports_nil : OnlyReports P [] := by simp [OnlyReports]

lemma OnlyReports.append (h : OnlyReports P journal) (h' : OnlyReports P journal') :
    OnlyReports P (journal ++ journal') := by
  intro entry hentry
  rcases List.mem_append.mp hentry with hentry | hentry
  · exact h entry hentry
  · exact h' entry hentry

lemma onlyReports_single {e : Event} (h : P e) : OnlyReports P [.report e] := by
  intro entry hentry
  exact ⟨e, List.mem_singleton.mp hentry, h⟩

lemma onlyReports_map {events : List Event} (h : ∀ e ∈ events, P e) :
    OnlyReports P (events.map .report) := by
  intro entry hentry
  obtain ⟨e, he, rfl⟩ := List.mem_map.mp hentry
  exact ⟨e, rfl, h e he⟩

lemma OnlyReports.mono (h : OnlyReports P journal) (hPQ : ∀ e, P e → Q e) :
    OnlyReports Q journal := by
  intro entry hentry
  obtain ⟨e, rfl, he⟩ := h entry hentry
  exact ⟨e, rfl, hPQ e he⟩

lemma OnlyReports.map_reported (h : OnlyReports P journal) :
    (reported journal).map .report = journal := by
  induction journal with
  | nil => rfl
  | cons entry journal ih =>
    obtain ⟨e, rfl, -⟩ := h entry List.mem_cons_self
    exact congrArg (.report e :: ·) (ih fun entry hentry => h entry (List.mem_cons_of_mem _ hentry))

lemma OnlyReports.of_mem_reported (h : OnlyReports P journal) : ∀ e ∈ reported journal, P e := by
  intro e he
  obtain ⟨entry, hentry, heq⟩ := List.mem_filterMap.mp he
  obtain ⟨e', rfl, he'⟩ := h entry hentry
  cases heq
  exact he'

/-! ## Readers -/

section Readers

variable {α β : Type}

/-- The reader reports events with the property and nothing else, wherever it starts. -/
def Notes (P : Event → Prop) (r : Reader α) : Prop :=
  ∀ c, OnlyReports P (r c).journal

lemma notes_pure (a : α) : Notes P (pure a : Reader α) := fun _ => onlyReports_nil

lemma notes_fail (e : GrammarError) : Notes P (Reader.fail e : Reader α) := fun _ => onlyReports_nil

lemma notes_lift (result : Except GrammarError α) : Notes P (Reader.lift result) :=
  fun _ => onlyReports_nil

lemma notes_nextTrimmed : Notes P Reader.nextTrimmed := fun _ => onlyReports_nil

lemma notes_require (value : Option α) (e : GrammarError) : Notes P (Reader.require value e) := by
  cases value with
  | none => exact notes_fail e
  | some a => exact notes_pure a

lemma notes_note {e : Event} (h : P e) : Notes P (Reader.note e) :=
  fun _ => onlyReports_single h

lemma notes_noteAll {events : List Event} (h : ∀ e ∈ events, P e) :
    Notes P (Reader.noteAll events) :=
  fun _ => onlyReports_map h

theorem notes_bind {r : Reader α} {f : α → Reader β} (hr : Notes P r) (hf : ∀ a, Notes P (f a)) :
    Notes P (r >>= f) := by
  intro c
  have hfirst := hr c
  simp only [Bind.bind]
  rcases hread : r c with ⟨result, c', journal⟩
  rw [hread] at hfirst
  cases result with
  | ok a => exact hfirst.append (hf a c')
  | error e => exact hfirst

lemma Notes.mono {r : Reader α} (h : Notes P r) (hPQ : ∀ e, P e → Q e) : Notes Q r :=
  fun c => (h c).mono hPQ

end Readers

/-! ## Parts of a body -/

/-- The reports that a table was read, and the warnings. -/
inductive Incidental (e : Event) : Prop where
  | table (hlevel : e.level = .debug) (hcode : e.code = .debug) (hmessage : e.message = "Table read")
  | warning (hlevel : e.level = .warning) (hcode : e.code = .manySteps ∨ e.code = .onlyDefaultProject)

lemma notes_readTable (label case : Text) : Notes Incidental (Table.read label case) := by
  intro c
  unfold Table.read
  split
  · exact onlyReports_nil
  · apply onlyReports_single
    refine .table ?_ ?_ ?_ <;> simp [Event.debug, Event.make]
    rfl

lemma notes_expectHeader (label case : Text) (first : Bool) :
    Notes Incidental (Section.expectHeader label case first) := by
  apply notes_bind notes_nextTrimmed
  intro line
  split
  · exact notes_pure _
  · exact notes_fail _

lemma notes_readItems (s : Section) (case : Text) (count : ℕ) :
    Notes Incidental (s.readItems case count) := by
  intro c
  fun_induction Section.readItems s case count c with
  | case1 => exact onlyReports_nil
  | case2 => exact onlyReports_nil
  | case3 count c line rest h text c' _ _ _ rows c'' journal hr ih =>
    have htable := notes_readTable s.label case c'
    rw [hr] at htable
    exact htable.append ih
  | case4 count c line rest h text c' _ _ _ e c'' journal hr =>
    have htable := notes_readTable s.label case c'
    rw [hr] at htable
    exact htable
  | case5 count c line rest h text c' _ _ _ ih => exact ih
  | case6 count c line rest h text c' _ _ _ _ _ ih => exact ih
  | case7 count c line rest h text c' _ _ _ _ _ _ ih => exact ih
  | case8 => exact onlyReports_nil

lemma notes_readSection (s : Section) (case : Text) : Notes Incidental (s.read case) :=
  notes_bind (notes_expectHeader _ _ _) fun _ => notes_readItems s case 1

lemma notes_readElement (element : StepElement) (count : ℕ) (line case : Text) :
    Notes Incidental (Steps.readElement element count line case) :=
  notes_bind (notes_require _ _) fun _ _ => onlyReports_nil

lemma notes_readTriad (case : Text) (count : ℕ) (line : Text) :
    Notes Incidental (Steps.readTriad case count line) :=
  notes_bind (notes_readElement _ _ _ _) fun _ =>
    notes_bind (notes_readElement _ _ _ _) fun _ =>
      notes_bind (notes_readElement _ _ _ _) fun _ => notes_pure _

lemma notes_readTriads (case : Text) (count : ℕ) (line : Text) :
    Notes Incidental (Steps.readTriads case count line) := by
  have hmany (count : ℕ) : OnlyReports Incidental
      (if count = Limits.maxSteps + 1 then [.report (Steps.tooMany case)] else []) := by
    split
    · apply onlyReports_single
      refine .warning ?_ (.inl ?_) <;> simp [Steps.tooMany, Event.warning, Event.make]
    · exact onlyReports_nil
  intro c
  fun_induction Steps.readTriads case count line c with
  | case1 count line c e c' journal h =>
    have htriad := notes_readTriad case count line c
    rwa [h] at htriad
  | case2 count line c triad next c' journal h =>
    have htriad := notes_readTriad case count line c
    rw [h] at htriad
    exact htriad.append (hmany count)
  | case3 count line c triad next c' journal h _ _ _ rest ih =>
    have htriad := notes_readTriad case count line c
    rw [h] at htriad
    exact (htriad.append (hmany count)).append ih

lemma notes_readSteps (case : Text) : Notes Incidental (Steps.read case) :=
  notes_bind (notes_expectHeader _ _ _) fun _ =>
    notes_bind notes_nextTrimmed fun line => notes_readTriads case 1 line

lemma notes_expectOpening (d : Dialect) (header case : Text) :
    Notes Incidental (d.expectOpening header case) := by
  cases d with
  | annotatedFunction => exact notes_bind (fun _ => onlyReports_nil) fun _ _ => onlyReports_nil
  | keywordTable =>
    intro c
    show OnlyReports Incidental (Dialect.expectMark case c).journal
    unfold Dialect.expectMark
    split <;> exact onlyReports_nil
  | featureScenario => exact fun _ => onlyReports_nil

lemma notes_readProjects (config : SyncConfig) (d : Dialect) (case : Text) :
    Notes Incidental (Projects.read config d case) := by
  apply notes_bind notes_nextTrimmed
  intro line
  apply notes_bind (notes_require _ _)
  intro scope
  apply notes_bind
  · apply notes_noteAll
    intro e he
    obtain ⟨warning, -, rfl⟩ := List.mem_map.mp he
    exact .warning rfl (.inr rfl)
  · intro _
    exact notes_bind (notes_lift _) fun _ => notes_pure _

end TestCatalog.Proofs
