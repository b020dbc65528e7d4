import TestCatalog.Assembly.Body
import TestCatalog.Proofs.Reading

/-!
# The document readers are steady

Every reader of a documentation block moves forward and is local. The end of a block reads as a blank line, so a
reader that stopped there may go on when other lines follow; one that left a line does not.
-/

namespace TestCatalog.Proofs

lemma rest_ne_cons {n : ℕ} {line : Text} {rest : List Text} {c : Cursor}
    (h : Cursor.Reaches ⟨n, rest⟩ c) : c.rest ≠ line :: rest := by
  intro heq
  have hle : c.rest.length ≤ rest.length := h.length_le
  rw [heq, List.length_cons] at hle
  omega

/-! ## Scans -/

/-- A scan that stops below a line or goes on below it, as the line tells, is local. -/
lemma scan_local {β : Type} (scan : ℕ → List Text → β × Cursor)
    (hnil : ∀ n m, (scan n []).1 = (scan m []).1)
    (hreaches : ∀ n ls, Cursor.Reaches ⟨n, ls⟩ (scan n ls).2)
    (hline : ∀ line, (∃ value, ∀ n rest, scan n (line :: rest) = (value, ⟨n + 1, rest⟩)) ∨
      ∃ f : β → β, ∀ n rest,
        scan n (line :: rest) = (f (scan (n + 1) rest).1, (scan (n + 1) rest).2))
    (n m : ℕ) {x y y' : List Text} (h : (scan n (x ++ y)).2.rest = y) (hy : y = [] → y' = []) :
    (scan m (x ++ y')).1 = (scan n (x ++ y)).1 ∧ (scan m (x ++ y')).2.rest = y' := by
  induction x generalizing n m with
  | nil =>
    cases y with
    | nil =>
      have hle := (hreaches m []).length_le
      rw [hy rfl]
      exact ⟨hnil m n, List.length_eq_zero_iff.mp (Nat.le_zero.mp hle)⟩
    | cons line rest =>
      -- every scan takes the next line, if there is one
      have hbelow : Cursor.Reaches ⟨n + 1, rest⟩ (scan n (line :: rest)).2 := by
        rcases hline line with ⟨value, hstop⟩ | ⟨f, hmore⟩
        · rw [hstop]
          exact .refl _
        · rw [hmore]
          exact hreaches (n + 1) rest
      exact absurd h (rest_ne_cons hbelow)
  | cons line x ih =>
    rw [List.cons_append] at h
    rw [List.cons_append, List.cons_append]
    rcases hline line with ⟨value, hstop⟩ | ⟨f, hmore⟩
    · rw [hstop] at h
      rw [hstop, hstop, List.self_eq_append_left.mp h.symm]
      exact ⟨rfl, rfl⟩
    · rw [hmore] at h
      obtain ⟨hvalue, hrest⟩ := ih (n + 1) (m + 1) h
      rw [hmore, hmore, hvalue]
      exact ⟨rfl, hrest⟩

/-! ## Tables -/

lemma takeRows_cons_reaches (n : ℕ) (line : Text) (rest : List Text) :
    Cursor.Reaches ⟨n + 1, rest⟩ (Table.takeRows n (line :: rest)).2 := by
  unfold Table.takeRows
  dsimp only
  split_ifs
  · exact .refl _
  · exact .refl _
  · exact Table.takeRows_reaches (n + 1) rest

lemma takeRows_local (n m : ℕ) {x y y' : List Text}
    (h : (Table.takeRows n (x ++ y)).2.rest = y) (hy : y = [] → y' = []) :
    (Table.takeRows m (x ++ y')).1 = (Table.takeRows n (x ++ y)).1 ∧
      (Table.takeRows m (x ++ y')).2.rest = y' := by
  refine scan_local Table.takeRows (fun _ _ => rfl) Table.takeRows_reaches (fun line => ?_) n m h hy
  by_cases hblank : Text.trim line = []
  · exact .inl ⟨none, fun n rest => by simp only [Table.takeRows, hblank, if_true]⟩
  by_cases hcloser : Text.trim line = Table.closer
  · have hne : Table.closer ≠ [] := by decide
    exact .inl ⟨some [], fun n rest => by simp only [Table.takeRows, hcloser, hne, if_true, if_false]⟩
  · exact .inr ⟨Option.map (Text.trim line :: ·), fun n rest => by
      simp only [Table.takeRows, hblank, hcloser, if_false]⟩

lemma steady_readTable (label case : Text) : Steady (Table.read label case) := by
  refine ⟨Table.forward_read label case, fun ls n m x y y' hls hrest hy => ?_⟩
  have hcursor : ∀ c : Cursor,
      (Table.read label case c).cursor = (Table.takeRows c.lineNumber c.rest).2 := by
    intro c
    rw [Table.read]
    split <;> simp_all
  have hresult : ∀ c c' : Cursor,
      (Table.takeRows c.lineNumber c.rest).1 = (Table.takeRows c'.lineNumber c'.rest).1 →
        (Table.read label case c).result = (Table.read label case c').result := by
    intro c c' hrows
    rw [Table.read, Table.read]
    split <;> split <;> simp_all
  subst hls
  rw [hcursor] at hrest
  obtain ⟨hrows, hrest'⟩ := takeRows_local n m hrest hy
  exact ⟨hresult _ _ hrows, by rw [hcursor, hrest']⟩

lemma yields_readTable_iff {label case : Text} {c c' : Cursor} {rows : List Text} :
    Yields (Table.read label case) c rows c' ↔
      Table.takeRows c.lineNumber c.rest = (some rows, c') ∧
        Table.render case (rows.map escapeMarkup) = .ok (Table.markup (rows.map escapeMarkup)) := by
  constructor
  · intro h
    unfold Yields Table.read at h
    rcases htaken : Table.takeRows c.lineNumber c.rest with ⟨_ | taken, c₁⟩
    · rw [htaken] at h
      cases h.1
    · rw [htaken] at h
      obtain ⟨hresult, rfl⟩ := h
      cases hrender : Table.render case (taken.map escapeMarkup) with
      | error e =>
        simp only [hrender] at hresult
        cases hresult
      | ok html =>
        simp only [hrender] at hresult
        obtain rfl : taken = rows := Except.ok.inj hresult
        exact ⟨rfl, Table.render_eq_markup hrender ▸ hrender⟩
  · rintro ⟨htaken, hrender⟩
    simp only [Yields, Table.read, htaken, hrender]
    exact ⟨rfl, trivial⟩

/-! ## Sections -/

lemma steady_expectHeader (label case : Text) (first : Bool) :
    Steady (Section.expectHeader label case first) := by
  refine steady_bind steady_nextTrimmed fun line => ?_
  cases h : Section.isHeader label line
  · simpa [h] using steady_fail _
  · simpa [h] using steady_pure _

/-- The items of a section from the numbered line `k` on, as a reader. -/
def sectionItems (s : Section) (case : Text) (k : ℕ) : Reader (List Item) :=
  s.readItems case k

def itemsBelow (s : Section) (case : Text) (k : ℕ) (text : Text) : Reader (List Item) :=
  if text = [] then pure []
  else if text = Table.opener then do
    let rows ← Table.read s.label case
    let items ← sectionItems s case k
    pure (.table rows :: items)
  else if s.isFreeForm then do
    let items ← sectionItems s case k
    pure (.line text :: items)
  else if Text.startsWith (Section.numberMark k) text then do
    let items ← sectionItems s case (k + 1)
    pure (.line text :: items)
  else if Text.startsWith "-" text then do
    let items ← sectionItems s case k
    pure (.line text :: items)
  else Reader.fail (.malformedSectionLine k s.label case)

lemma sectionItems_nil (s : Section) (case : Text) (k n : ℕ) :
    sectionItems s case k ⟨n, []⟩ = { result := .ok [], cursor := ⟨n, []⟩ } := by
  rw [sectionItems, Section.readItems]

lemma consItem_eq_bind (item : Item) (s : Section) (case : Text) (k : ℕ) (c : Cursor) :
    Section.consItem item [] (s.readItems case k c) =
      (do let items ← sectionItems s case k; pure (item :: items) : Reader (List Item)) c := by
  simp only [Section.consItem, Bind.bind, pure, sectionItems]
  rcases s.readItems case k c with ⟨result | items, c', j⟩ <;> simp [Except.map]

lemma sectionItems_cons (s : Section) (case : Text) (k n : ℕ) (line : Text) (rest : List Text) :
    sectionItems s case k ⟨n, line :: rest⟩ =
      itemsBelow s case k (Text.trim line) ⟨n + 1, rest⟩ := by
  rw [sectionItems, Section.readItems, itemsBelow]
  simp only [consItem_eq_bind]
  split
  · rfl
  split
  · simp only [Bind.bind]
    split
    · rename_i rows c journal hr
      rw [hr]
      simp only [Section.consItem, pure, sectionItems]
      rcases s.readItems case k c with ⟨result | items, c', j⟩ <;> simp [Except.map]
    · rename_i hr
      rw [hr]
  split
  · simp
  split
  · simp
  split
  · simp
  · rfl

lemma forward_itemsBelow (s : Section) (case : Text) (k : ℕ) (text : Text) :
    (itemsBelow s case k text).Forward := by
  have forward (item : Item) (k : ℕ) :
      (do let items ← sectionItems s case k; pure (item :: items) : Reader (List Item)).Forward :=
    Reader.forward_bind (Section.forward_readItems s case k) fun _ => Reader.forward_pure _
  unfold itemsBelow
  split_ifs
  · exact Reader.forward_pure _
  · exact Reader.forward_bind (Table.forward_read _ _) fun rows => forward _ k
  · exact forward _ k
  · exact forward _ (k + 1)
  · exact forward _ k
  · exact Reader.forward_fail _

lemma steady_sectionItems (s : Section) (case : Text) (k : ℕ) :
    Steady (sectionItems s case k) := by
  have forward (k : ℕ) : (sectionItems s case k).Forward := Section.forward_readItems s case k
  refine ⟨forward k, fun ls => ?_⟩
  induction hlen : ls.length using Nat.strongRecOn generalizing k ls with
  | ind len ih =>
    subst hlen
    intro n m x y y' hls hrest hy
    cases ls with
    | nil =>
      obtain ⟨rfl, rfl⟩ := List.append_eq_nil_iff.mp hls.symm
      rw [hy rfl, List.nil_append, sectionItems_nil, sectionItems_nil]
      exact ⟨rfl, rfl⟩
    | cons line rest =>
      have hcons (item : Item) (k : ℕ) (ls : List Text) (hle : ls.length ≤ rest.length) :
          LocalAt (do let items ← sectionItems s case k; pure (item :: items)) ls :=
        localAt_bind (ih ls.length (Nat.lt_succ_of_le hle) k ls rfl) (forward k)
          (fun _ _ c _ => (steady_pure _).localAt _) fun _ => Reader.forward_pure _
      have hbelow : LocalAt (itemsBelow s case k (Text.trim line)) rest := by
        unfold itemsBelow
        split
        · exact (steady_pure _).localAt _
        split
        · refine localAt_bind ((steady_readTable _ _).localAt rest) (Table.forward_read _ _)
            (fun n rows c hc => ?_)
            fun rows => Reader.forward_bind (forward k) fun _ => Reader.forward_pure _
          exact hcons (.table rows) k c.rest (hc.reaches (Table.forward_read _ _)).length_le
        split
        · exact hcons _ k rest (Nat.le_refl _)
        split
        · exact hcons _ (k + 1) rest (Nat.le_refl _)
        split
        · exact hcons _ k rest (Nat.le_refl _)
        · exact (steady_fail _).localAt _
      rw [sectionItems_cons] at hrest
      cases x with
      | nil =>
        -- the line is taken, so that it cannot be left
        obtain rfl : line :: rest = y := hls
        have hreach : Cursor.Reaches ⟨n + 1, rest⟩
            (itemsBelow s case k (Text.trim line) ⟨n + 1, rest⟩).cursor :=
          forward_itemsBelow s case k _ _
        exact absurd hrest (rest_ne_cons hreach)
      | cons line' x =>
        obtain ⟨rfl, hx⟩ := List.cons.inj hls
        rw [List.cons_append, sectionItems_cons, sectionItems_cons]
        exact hbelow (n + 1) (m + 1) x y y' hx hrest hy

lemma steady_readSection (s : Section) (case : Text) : Steady (s.read case) :=
  steady_bind (steady_expectHeader _ _ _) fun _ => steady_sectionItems s case 1

/-! ## Steps -/

lemma takeContinuation_cons_reaches (n : ℕ) (line : Text) (rest : List Text) :
    Cursor.Reaches ⟨n + 1, rest⟩ (Steps.takeContinuation n (line :: rest)).2.2 := by
  unfold Steps.takeContinuation
  dsimp only
  split_ifs
  · exact Steps.takeContinuation_reaches (n + 1) rest
  · exact .refl _

lemma takeContinuation_local (n m : ℕ) {x y y' : List Text}
    (h : (Steps.takeContinuation n (x ++ y)).2.2.rest = y) (hy : y = [] → y' = []) :
    (Steps.takeContinuation m (x ++ y')).1 = (Steps.takeContinuation n (x ++ y)).1 ∧
      (Steps.takeContinuation m (x ++ y')).2.1 = (Steps.takeContinuation n (x ++ y)).2.1 ∧
      (Steps.takeContinuation m (x ++ y')).2.2.rest = y' := by
  let scan (n : ℕ) (ls : List Text) : (List Text × Text) × Cursor :=
    (((Steps.takeContinuation n ls).1, (Steps.takeContinuation n ls).2.1),
      (Steps.takeContinuation n ls).2.2)
  have hline (line : Text) : (∃ value, ∀ n rest, scan n (line :: rest) = (value, ⟨n + 1, rest⟩)) ∨
      ∃ f : List Text × Text → List Text × Text, ∀ n rest,
        scan n (line :: rest) = (f (scan (n + 1) rest).1, (scan (n + 1) rest).2) := by
    by_cases hdash : Text.startsWith "-" (Text.trim line)
    · exact .inr ⟨fun value => (Text.trim line :: value.1, value.2), fun n rest => by
        simp only [scan, Steps.takeContinuation, hdash, if_true]⟩
    · exact .inl ⟨([], Text.trim line), fun n rest => by
        simp only [scan, Steps.takeContinuation, hdash, if_false, Bool.false_eq_true]⟩
  obtain ⟨hvalue, hrest⟩ :=
    scan_local scan (fun _ _ => rfl) Steps.takeContinuation_reaches hline n m h hy
  obtain ⟨hlines, hnext⟩ := Prod.mk.inj hvalue
  exact ⟨hlines, hnext, hrest⟩

lemma steady_readElement (element : StepElement) (count : ℕ) (line case : Text) :
    Steady (Steps.readElement element count line case) := by
  refine ⟨Steps.forward_readElement _ _ _ _, fun ls => ?_⟩
  refine localAt_bind ((steady_require _ _).localAt ls) (Reader.forward_require _ _)
    (fun n body c _ n m x y y' hls hrest hy => ?_)
    fun body c => Steps.takeContinuation_reaches c.lineNumber c.rest
  rw [hls] at hrest ⊢
  obtain ⟨hlines, hnext, hrest'⟩ := takeContinuation_local n m hrest hy
  exact ⟨by simp only [hlines, hnext], hrest'⟩

lemma steady_readTriad (case : Text) (count : ℕ) (line : Text) :
    Steady (Steps.readTriad case count line) :=
  steady_bind (steady_readElement _ _ _ _) fun _ =>
    steady_bind (steady_readElement _ _ _ _) fun _ =>
      steady_bind (steady_readElement _ _ _ _) fun _ => steady_pure _

/-- The triads from step `count` on, as a reader. -/
def stepTriads (case : Text) (count : ℕ) (line : Text) : Reader (List Triad) :=
  Steps.readTriads case count line

/-- How the steps go on with the line `next` after step `count`. -/
def triadsAfter (case : Text) (count : ℕ) (next : Text) : Reader (List Triad) :=
  if next = [] then pure [] else stepTriads case (count + 1) next

def stepNotes (case : Text) (count : ℕ) : List Event :=
  if count = Limits.maxSteps + 1 then [Steps.tooMany case] else []

lemma stepTriads_eq (case : Text) (count : ℕ) (line : Text) :
    stepTriads case count line = (do
      let (triad, next) ← Steps.readTriad case count line
      Reader.noteAll (stepNotes case count)
      let triads ← triadsAfter case count next
      pure (triad :: triads)) := by
  funext c
  have hnotes : (stepNotes case count).map Entry.report =
      if count = Limits.maxSteps + 1 then [.report (Steps.tooMany case)] else [] := by
    unfold stepNotes
    split <;> rfl
  rw [stepTriads, Steps.readTriads]
  simp only [Bind.bind]
  split
  · rename_i hr
    rw [hr]
  · rename_i triad next c' journal hr
    rw [hr]
    simp only [Reader.noteAll, hnotes]
    unfold triadsAfter
    split
    · simp [pure]
    · simp only [stepTriads, pure]
      rcases Steps.readTriads case (count + 1) next c' with ⟨result | triads, c'', j⟩ <;>
        simp [Except.map]

lemma steady_stepTriads (case : Text) (count : ℕ) (line : Text) :
    Steady (stepTriads case count line) := by
  have forward_after (count : ℕ) (next : Text) : (triadsAfter case count next).Forward := by
    unfold triadsAfter
    split
    · exact Reader.forward_pure _
    · exact Steps.forward_readTriads case (count + 1) next
  refine ⟨Steps.forward_readTriads case count line, fun ls => ?_⟩
  induction hlen : ls.length using Nat.strongRecOn generalizing count line ls with
  | ind len ih =>
    subst hlen
    rw [stepTriads_eq]
    refine localAt_bind ((steady_readTriad case count line).localAt ls)
      (steady_readTriad case count line).forward (fun n x c hx => ?_) fun x => ?_
    · refine localAt_bind ((steady_noteAll _).localAt _) (Reader.forward_noteAll _)
        (fun n' u c' hu => ?_) fun u => ?_
      · obtain rfl : (⟨n', c.rest⟩ : Cursor) = c' := yields_noteAll_iff.mp hu
        have hafter : LocalAt (triadsAfter case count x.2) c.rest := by
          unfold triadsAfter
          split
          · exact (steady_pure _).localAt _
          · rename_i hnext
            have hlt := Steps.length_lt_of_readTriad hx.eq hnext
            exact ih c.rest.length hlt (count + 1) x.2 c.rest rfl
        exact localAt_bind hafter (forward_after _ _) (fun _ _ _ _ => (steady_pure _).localAt _)
          fun _ => Reader.forward_pure _
      · exact Reader.forward_bind (forward_after _ _) fun _ => Reader.forward_pure _
    · exact Reader.forward_bind (Reader.forward_noteAll _) fun _ =>
        Reader.forward_bind (forward_after _ _) fun _ => Reader.forward_pure _

lemma steady_readSteps (case : Text) : Steady (Steps.read case) :=
  steady_bind (steady_expectHeader _ _ _) fun _ =>
    steady_bind steady_nextTrimmed fun line => steady_stepTriads case 1 line

/-! ## Openings and project lines -/

lemma skipSignature_local (depth : Int) (line : Text) (n m : ℕ) {x y y' : List Text}
    (h : (Dialect.skipSignature depth line n (x ++ y)).2.rest = y) (hy : y = [] → y' = []) :
    (Dialect.skipSignature depth line m (x ++ y')).1 =
        (Dialect.skipSignature depth line n (x ++ y)).1 ∧
      (Dialect.skipSignature depth line m (x ++ y')).2.rest = y' := by
  induction x generalizing depth line n m with
  | nil =>
    cases y with
    | nil =>
      rw [hy rfl]
      exact ⟨rfl, rfl⟩
    | cons next rest =>
      simp only [List.nil_append, Dialect.skipSignature] at h ⊢
      by_cases hends : (Dialect.signatureStep depth line).2
      · simp only [hends, if_true]
        cases y' with
        | nil => exact ⟨hends, rfl⟩
        | cons next' rest' => simp only [Dialect.skipSignature, hends, if_true, and_self]
      · simp only [hends, if_false, Bool.false_eq_true] at h
        have hreach := Dialect.skipSignature_reaches (Dialect.signatureStep depth line).1 next
          (n + 1) rest
        exact absurd h (rest_ne_cons hreach)
  | cons next x ih =>
    simp only [List.cons_append, Dialect.skipSignature] at h ⊢
    by_cases hends : (Dialect.signatureStep depth line).2
    · simp only [hends, if_true] at h
      have hlength := congrArg List.length h
      rw [List.length_cons, List.length_append] at hlength
      omega
    · simp only [hends, if_false, Bool.false_eq_true] at h ⊢
      exact ih _ next (n + 1) (m + 1) h

lemma takeQuotes_local (n m : ℕ) {x y y' : List Text}
    (h : (Dialect.takeQuotes n (x ++ y)).2.rest = y) (hy : y = [] → y' = []) :
    (Dialect.takeQuotes m (x ++ y')).1 = (Dialect.takeQuotes n (x ++ y)).1 ∧
      (Dialect.takeQuotes m (x ++ y')).2.rest = y' := by
  refine scan_local Dialect.takeQuotes (fun _ _ => rfl) Dialect.takeQuotes_reaches (fun line => ?_)
    n m h hy
  by_cases hblank : Text.trim line = []
  · exact .inr ⟨id, fun n rest => by simp only [Dialect.takeQuotes, hblank, if_true, id]⟩
  · exact .inl ⟨Text.contains Dialect.tripleQuote line, fun n rest => by
      simp only [Dialect.takeQuotes, hblank, if_false]⟩

lemma steady_expectQuotes (case : Text) : Steady (Dialect.expectQuotes case) := by
  refine ⟨Dialect.forward_expectQuotes case, fun ls n m x y y' hls hrest hy => ?_⟩
  subst hls
  obtain ⟨hfound, hrest'⟩ := takeQuotes_local n m hrest hy
  exact ⟨by simp only [Dialect.expectQuotes, hfound], hrest'⟩

lemma steady_expectSignature (header case : Text) :
    Steady (Dialect.expectSignature header case) := by
  refine ⟨fun c => Dialect.skipSignature_reaches 0 header c.lineNumber c.rest,
    fun ls n m x y y' hls hrest hy => ?_⟩
  subst hls
  obtain ⟨hends, hrest'⟩ := skipSignature_local 0 header n m hrest hy
  exact ⟨by simp only [Dialect.expectSignature, hends], hrest'⟩

lemma steady_expectMark (case : Text) : Steady (Dialect.expectMark case) :=
  steady_of_next (fun _ _ => ⟨rfl, rfl⟩) fun _ _ _ _ _ => ⟨rfl, rfl⟩

lemma steady_expectOpening (d : Dialect) (header case : Text) :
    Steady (d.expectOpening header case) := by
  cases d with
  | annotatedFunction =>
    exact steady_bind (steady_expectSignature header case) fun _ => steady_expectQuotes case
  | keywordTable => exact steady_expectMark case
  | featureScenario => exact steady_expectQuotes case

lemma steady_readProjects (config : SyncConfig) (d : Dialect) (case : Text) :
    Steady (Projects.read config d case) :=
  steady_bind steady_nextTrimmed fun _ =>
    steady_bind (steady_require _ _) fun _ =>
      steady_bind (steady_noteAll _) fun _ =>
        steady_bind (steady_lift _) fun _ => steady_pure _

/-! ## Bodies -/

theorem steady_readBody (config : SyncConfig) (d : Dialect) (header name : Text) :
    Steady (CaseBody.read config d header name) :=
  steady_bind (steady_expectOpening d header name) fun _ =>
    steady_bind (steady_readSection _ _) fun _ =>
    steady_bind (steady_note _) fun _ =>
    steady_bind (steady_readSection _ _) fun _ =>
    steady_bind (steady_note _) fun _ =>
    steady_bind (steady_readSection _ _) fun _ =>
    steady_bind (steady_note _) fun _ =>
    steady_bind (steady_readSteps _) fun _ =>
    steady_bind (steady_note _) fun _ =>
    steady_bind (steady_readProjects _ _ _) fun _ =>
    steady_bind (steady_noteAll _) fun _ => steady_pure _

end TestCatalog.Proofs
