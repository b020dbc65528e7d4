import TestCatalog.Proofs.Runs

/-!
# Bodies below other names

The readers of a body are given the name of its case for their errors alone. Where they succeed they
do so below any other name, and only the warning on its projects names the case.
-/

namespace TestCatalog.Proofs

variable {α β : Type}

/-- Where the first reader succeeds, the second one succeeds with the same value and cursor. -/
def Follows (r r' : Reader α) : Prop :=
  ∀ c a c', Yields r c a c' → Yields r' c a c'

lemma follows_refl (r : Reader α) : Follows r r :=
  fun _ _ _ h => h

lemma follows_bind {r r' : Reader α} {f f' : α → Reader β} (hr : Follows r r')
    (hf : ∀ a, Follows (f a) (f' a)) : Follows (r >>= f) (r' >>= f') := by
  intro c b c'' h
  obtain ⟨a, c', ha, hb⟩ := yields_bind_iff.mp h
  exact yields_bind_iff.mpr ⟨a, c', hr c a c' ha, hf a c' b c'' hb⟩

lemma follows_fail (e : GrammarError) (r : Reader α) : Follows (Reader.fail e) r :=
  fun _ _ _ h => (yields_fail_iff.mp h).elim

lemma follows_require (value : Option α) (e e' : GrammarError) :
    Follows (Reader.require value e) (Reader.require value e') :=
  fun _ _ _ h => yields_require_iff.mpr (yields_require_iff.mp h)

variable (case case' : Text)

/-! ## Sections -/

lemma render_other {rows : List Text} {html : Text} (h : Table.render case rows = .ok html) :
    Table.render case' rows = .ok html := by
  have hrows (expected index : ℕ) (rows : List Text) (above : Text)
      (h : Table.renderRows case expected above index rows = .ok html) :
      Table.renderRows case' expected above index rows = .ok html := by
    induction rows generalizing above index with
    | nil => exact h
    | cons row rows ih =>
      unfold Table.renderRows at h ⊢
      by_cases hcells : (Table.cells row).length ≠ expected
      · rw [if_pos hcells] at h
        cases h
      · rw [if_neg hcells] at h ⊢
        exact ih (index + 1) _ h
  cases rows with
  | nil => cases h
  | cons row rows => exact hrows _ 1 _ _ h

lemma follows_readTable (label : Text) :
    Follows (Table.read label case) (Table.read label case') := by
  intro c rows c' h
  obtain ⟨htaken, hrender⟩ := yields_readTable_iff.mp h
  exact yields_readTable_iff.mpr ⟨htaken, render_other case case' hrender⟩

lemma follows_expectHeader (label : Text) (first : Bool) :
    Follows (Section.expectHeader label case first) (Section.expectHeader label case' first) := by
  refine follows_bind (follows_refl _) fun line => ?_
  by_cases hheader : Section.isHeader label line = true
  · rw [if_pos hheader, if_pos hheader]
    exact follows_refl _
  · rw [if_neg hheader]
    exact follows_fail _ _

lemma yields_sectionItems_other (s : Section) (k n : ℕ) (ls : List Text) {items : List Item}
    {c : Cursor} (h : Yields (sectionItems s case k) ⟨n, ls⟩ items c) :
    Yields (sectionItems s case' k) ⟨n, ls⟩ items c := by
  induction hlen : ls.length using Nat.strongRecOn generalizing k n ls items c with
  | ind len ih =>
    subst hlen
    cases ls with
    | nil => rwa [Yields, sectionItems_nil] at h ⊢
    | cons line rest =>
      have hcons (item : Item) (k : ℕ) {n : ℕ} {ls : List Text} (hle : ls.length ≤ rest.length)
          {items : List Item} {c : Cursor}
          (h : Yields (do let items ← sectionItems s case k; pure (item :: items)) ⟨n, ls⟩ items c) :
          Yields (do let items ← sectionItems s case' k; pure (item :: items)) ⟨n, ls⟩ items c := by
        obtain ⟨others, c₁, hothers, hpure⟩ := yields_bind_iff.mp h
        have hlt : ls.length < (line :: rest).length := Nat.lt_succ_of_le hle
        exact yields_bind_iff.mpr ⟨others, c₁, ih _ hlt k n ls hothers rfl, hpure⟩
      rw [Yields, sectionItems_cons] at h ⊢
      unfold itemsBelow at h ⊢
      split_ifs at h ⊢ with hblank hopener hfree hnumber hdash
      · exact h
      · obtain ⟨rows, ⟨n₁, ls₁⟩, hrows, hitems⟩ := yields_bind_iff.mp h
        have hle : ls₁.length ≤ rest.length := (hrows.reaches (Table.forward_read _ _)).length_le
        exact yields_bind_iff.mpr
          ⟨rows, _, follows_readTable case case' _ _ _ _ hrows, hcons (.table rows) k hle hitems⟩
      · exact hcons _ k (Nat.le_refl _) h
      · exact hcons _ (k + 1) (Nat.le_refl _) h
      · exact hcons _ k (Nat.le_refl _) h
      · exact (yields_fail_iff.mp h).elim

lemma follows_readSection (s : Section) : Follows (s.read case) (s.read case') :=
  follows_bind (follows_expectHeader case case' _ _) fun _ c _ _ h =>
    yields_sectionItems_other case case' s 1 c.lineNumber c.rest h

/-! ## Steps -/

lemma follows_readElement (e : StepElement) (count : ℕ) (line : Text) :
    Follows (Steps.readElement e count line case) (Steps.readElement e count line case') :=
  follows_bind (follows_require _ _ _) fun _ => follows_refl _

lemma follows_readTriad (count : ℕ) (line : Text) :
    Follows (Steps.readTriad case count line) (Steps.readTriad case' count line) :=
  follows_bind (follows_readElement case case' _ _ _) fun _ =>
    follows_bind (follows_readElement case case' _ _ _) fun _ =>
      follows_bind (follows_readElement case case' _ _ _) fun _ => follows_refl _

lemma yields_stepTriads_other (count n : ℕ) (line : Text) (ls : List Text) {triads : List Triad}
    {c : Cursor} (h : Yields (stepTriads case count line) ⟨n, ls⟩ triads c) :
    Yields (stepTriads case' count line) ⟨n, ls⟩ triads c := by
  induction hlen : ls.length using Nat.strongRecOn generalizing count n line ls triads c with
  | ind len ih =>
    subst hlen
    rw [stepTriads_eq] at h ⊢
    obtain ⟨⟨triad, next⟩, ⟨n₁, ls₁⟩, htriad, h⟩ := yields_bind_iff.mp h
    obtain ⟨u, c₂, hnote, h⟩ := yields_bind_iff.mp h
    obtain rfl := yields_noteAll_iff.mp hnote
    obtain ⟨others, c₃, hothers, hpure⟩ := yields_bind_iff.mp h
    have hafter : Yields (triadsAfter case' count next) ⟨n₁, ls₁⟩ others c₃ := by
      unfold triadsAfter at hothers ⊢
      by_cases hnext : next = []
      · rwa [if_pos hnext] at hothers ⊢
      · rw [if_neg hnext] at hothers ⊢
        have hlt : ls₁.length < ls.length := Steps.length_lt_of_readTriad htriad.eq hnext
        exact ih ls₁.length hlt (count + 1) n₁ next ls₁ hothers rfl
    refine yields_bind_iff.mpr ⟨_, _, follows_readTriad case case' _ _ _ _ _ htriad, ?_⟩
    refine yields_bind_iff.mpr ⟨(), _, yields_noteAll _ _, ?_⟩
    exact yields_bind_iff.mpr ⟨others, c₃, hafter, hpure⟩

lemma follows_readSteps : Follows (Steps.read case) (Steps.read case') :=
  follows_bind (follows_expectHeader case case' _ _) fun _ =>
    follows_bind (follows_refl _) fun line c _ _ h =>
      yields_stepTriads_other case case' 1 c.lineNumber line c.rest h

/-! ## Bodies -/

lemma check_projects_other {config : SyncConfig} {projects : List Text}
    (h : Projects.check config case projects = .ok ()) :
    Projects.check config case' projects = .ok () := by
  induction projects with
  | nil => rfl
  | cons project projects ih =>
    unfold Projects.check at h ⊢
    split_ifs at h ⊢
    exact ih h

/-- A body is read below any other header with a like opening, and its warning names the case. -/
theorem yields_body_other {config : SyncConfig} {d : Dialect} {header header' name name' : Text}
    {c c' : Cursor} {body : CaseBody}
    (hopening : Follows (d.expectOpening header name) (d.expectOpening header' name'))
    (h : Yields (CaseBody.read config d header name) c body c') :
    Yields (CaseBody.read config d header' name') c
      { body with warning := Projects.warning? config d name' body.projects } c' := by
  obtain ⟨c₁, c₂, c₃, c₄, c₅, h₁, h₂, h₃, h₄, h₅, h₆⟩ := yields_readBody_iff.mp h
  obtain ⟨scope, hscope, hcheck, hlisted, hend⟩ := yields_readProjects_iff.mp h₆
  have hprojects : body.projects = Projects.listed scope := congrArg Prod.fst hlisted
  refine yields_readBody_iff.mpr ⟨c₁, c₂, c₃, c₄, c₅, hopening _ _ _ h₁,
    follows_readSection name name' _ _ _ _ h₂, follows_readSection name name' _ _ _ _ h₃,
    follows_readSection name name' _ _ _ _ h₄, follows_readSteps name name' _ _ _ h₅, ?_⟩
  refine yields_readProjects_iff.mpr
    ⟨scope, hscope, check_projects_other name name' hcheck, ?_, hend⟩
  rw [hprojects]

end TestCatalog.Proofs
