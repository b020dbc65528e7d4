import TestCatalog.Proofs.NameSpans
import TestCatalog.Proofs.RecoveredIds

/-!
# Reissued texts

Wherever it stands, the name of a case without identifier changes into its issued name. The tokens
that change hold no lead, blank, quote or comment, so that a line that leads up to a name does so
still. A text goes on as two parts if no name stands across the border between them.
-/

namespace TestCatalog.Proofs

/-- The second text has issued tokens for some of the fresh tokens of the first one. -/
inductive Reissued (d : Dialect) : Text → Text → Prop where
  | nil : Reissued d [] []
  | char (c : Char) {x x' : Text} (h : Reissued d x x') : Reissued d (c :: x) (c :: x')
  | token (n : ℕ) {x x' : Text} (h : Reissued d x x') :
      Reissued d (freshToken d ++ x) (issuedToken d n ++ x')

variable {d : Dialect} {n : ℕ} {x x' y y' : Text}

lemma Reissued.refl (d : Dialect) (x : Text) : Reissued d x x := by
  induction x with
  | nil => exact .nil
  | cons c x ih => exact .char c ih

lemma Reissued.append (hx : Reissued d x x') (hy : Reissued d y y') :
    Reissued d (x ++ y) (x' ++ y') := by
  induction hx with
  | nil => exact hy
  | char c _ ih => exact .char c ih
  | token n _ ih =>
    rw [List.append_assoc, List.append_assoc]
    exact .token n ih

lemma Reissued.ne_nil (h : Reissued d x x') (hx : x ≠ []) : x' ≠ [] := by
  cases h with
  | nil => exact hx
  | char c h => exact List.cons_ne_nil c _
  | token n h => exact List.append_ne_nil_of_left_ne_nil (issuedToken_ne_nil d n) _

lemma Reissued.notMem {c : Char} (hc : ¬ Inert c) (h : Reissued d x x') (hx : c ∉ x) : c ∉ x' := by
  induction h with
  | nil => exact hx
  | char c' h ih =>
    rw [List.mem_cons, not_or] at hx ⊢
    exact ⟨hx.1, ih hx.2⟩
  | token n h ih =>
    rw [List.mem_append, not_or] at hx ⊢
    exact ⟨fun hmem => hc (inert_issuedToken d n c hmem), ih hx.2⟩

/-- A text without the first character of the token has nothing that changes. -/
lemma Reissued.eq_of_blank (h : Reissued d x x') (hx : AllBlank x) : x' = x := by
  induction h with
  | nil => rfl
  | char c h ih => rw [ih fun c' hc' => hx c' (List.mem_cons_of_mem c hc')]
  | token n h ih =>
    obtain ⟨c, token, htoken⟩ := List.exists_cons_of_ne_nil (freshToken_ne_nil d)
    have hc : c ∈ freshToken d := by rw [htoken]; exact List.mem_cons_self
    have hblank := (allBlank_append.mp hx).1 c hc
    rw [(inert_freshToken d c hc).1] at hblank
    cases hblank

/-! ## Leads -/

/-- No occurrence of the needle begins within the text, whatever follows. -/
def Passes (needle : Text) : Text → Prop
  | [] => True
  | c :: l => (∀ t, ¬ needle <+: c :: (l ++ t)) ∧ Passes needle l

section Passes

variable {needle l l' : Text}

lemma Passes.append (h : Passes needle l) (h' : Passes needle l') : Passes needle (l ++ l') := by
  induction l with
  | nil => exact h'
  | cons c l ih =>
    refine ⟨fun t => ?_, ih h.2⟩
    have hnot := h.1 (l' ++ t)
    rwa [← List.append_assoc] at hnot

lemma passes_of_head? (hneedle : needle ≠ []) (hl : ∀ c ∈ l, needle.head? ≠ some c) :
    Passes needle l := by
  induction l with
  | nil => trivial
  | cons c l ih =>
    exact ⟨fun t => not_prefix_of_head? hneedle (hl c List.mem_cons_self) (l ++ t),
      ih fun c' hc' => hl c' (List.mem_cons_of_mem c hc')⟩

lemma Passes.cut? (h : Passes needle l) (t : Text) : Text.cut? needle (l ++ t) =
    (Text.cut? needle t).map fun (before, after) => (l ++ before, after) := by
  induction l with
  | nil => simp
  | cons c l ih =>
    rw [List.cons_append, cut?_cons (h.1 t), ih h.2, Option.map_map]
    rfl

end Passes

lemma passes_freshToken (hd : d ≠ .keywordTable) : Passes (headLead d) (freshToken d) := by
  apply passes_of_head?
  · cases d <;> first | exact absurd rfl hd | decide
  · cases d <;> first | exact absurd rfl hd | decide

lemma passes_issuedToken (hd : d ≠ .keywordTable) (n : ℕ) :
    Passes (headLead d) (issuedToken d n) := by
  have hdigits {lead : Text} (hlead : ∃ c ∈ lead.head?, c.isDigit = false) :
      Passes lead (Text.ofNat n) := by
    obtain ⟨c, hc, hdigit⟩ := hlead
    apply passes_of_head?
    · rintro rfl
      cases hc
    · rintro c' hc' heq
      rw [Option.mem_def.mp hc] at heq
      cases heq
      rw [isDigit_of_mem_ofNat hc'] at hdigit
      cases hdigit
  cases d with
  | annotatedFunction =>
    have hword : Passes "def " "test_gi" := passes_of_head? (by decide) (by decide)
    have hgap : Passes "def " "d_" := by
      refine ⟨fun t h => ?_, fun t h => ?_, trivial⟩
      · have hnext := (List.cons_prefix_cons.mp h).2
        exact absurd (List.cons_prefix_cons.mp hnext).1 (by decide)
      · exact absurd (List.cons_prefix_cons.mp h).1 (by decide)
    exact (hword.append hgap).append (hdigits ⟨'d', rfl, rfl⟩)
  | keywordTable => exact absurd rfl hd
  | featureScenario =>
    have hword : Passes "Scenario: " "test_gid_" := passes_of_head? (by decide) (by decide)
    exact hword.append (hdigits ⟨'S', rfl, rfl⟩)

/-- No token begins with a character of the text. -/
def PlainText (d : Dialect) (p : Text) : Prop :=
  ∀ c ∈ p, (freshToken d).head? ≠ some c ∧ (issuedToken d 0).head? ≠ some c

lemma plainText_headLead (d : Dialect) : PlainText d (headLead d) := by
  unfold PlainText
  cases d <;> decide

lemma exists_of_plain_prefix {p : Text} (hp : PlainText d p) (h : Reissued d x x') (hx : p <+: x) :
    ∃ y y', x = p ++ y ∧ x' = p ++ y' ∧ Reissued d y y' := by
  induction p generalizing x x' with
  | nil => exact ⟨x, x', rfl, rfl, h⟩
  | cons c p ih =>
    cases h with
    | nil => exact absurd (List.prefix_nil.mp hx) (List.cons_ne_nil c p)
    | char c' h =>
      obtain ⟨rfl, htail⟩ := List.cons_prefix_cons.mp hx
      obtain ⟨y, y', rfl, rfl, hy⟩ :=
        ih (fun c' hc' => hp c' (List.mem_cons_of_mem c hc')) h htail
      exact ⟨y, y', rfl, rfl, hy⟩
    | token n h =>
      obtain ⟨c', token, htoken⟩ := List.exists_cons_of_ne_nil (freshToken_ne_nil d)
      rw [htoken] at hx
      obtain ⟨rfl, -⟩ := List.cons_prefix_cons.mp hx
      exact absurd (by rw [htoken]; rfl) (hp c List.mem_cons_self).1

lemma prefix_of_reissued {p : Text} (hp : PlainText d p) (h : Reissued d x x') (hx' : p <+: x') :
    p <+: x := by
  induction p generalizing x x' with
  | nil => exact List.nil_prefix
  | cons c p ih =>
    cases h with
    | nil => exact hx'
    | char c' h =>
      obtain ⟨rfl, htail⟩ := List.cons_prefix_cons.mp hx'
      exact List.cons_prefix_cons.mpr
        ⟨rfl, ih (fun c' hc' => hp c' (List.mem_cons_of_mem c hc')) h htail⟩
    | token n h =>
      have hhead : (issuedToken d 0).head? = (issuedToken d n).head? := by cases d <;> rfl
      obtain ⟨c', token, htoken⟩ := List.exists_cons_of_ne_nil (issuedToken_ne_nil d n)
      rw [htoken] at hx'
      obtain ⟨rfl, -⟩ := List.cons_prefix_cons.mp hx'
      exact absurd (by rw [hhead, htoken]; rfl) (hp c List.mem_cons_self).2

/-- The first lead stays where it is. -/
lemma Reissued.exists_cut? (h : Reissued d x x') {head after : Text}
    (hcut : Text.cut? (headLead d) x = some (head, after)) :
    ∃ head' after', Text.cut? (headLead d) x' = some (head', after') ∧ Reissued d after after' := by
  by_cases hd : d = .keywordTable
  · subst hd
    have hwhole (t : Text) : Text.cut? (headLead .keywordTable) t = some ([], t) :=
      cut?_append_self [] t
    rw [hwhole] at hcut
    cases hcut
    exact ⟨[], x', hwhole x', h⟩
  induction h generalizing head with
  | nil =>
    obtain ⟨hnil, -⟩ := cut?_eq_some_iff.mp hcut
    have hafter := (List.append_eq_nil_iff.mp (List.append_eq_nil_iff.mp hnil.symm).2).2
    subst hafter
    exact ⟨head, [], hcut, .nil⟩
  | @char c x x' h ih =>
    by_cases hstart : headLead d <+: c :: x
    · obtain ⟨y, y', hx, hx', hy⟩ :=
        exists_of_plain_prefix (plainText_headLead d) (.char c h) hstart
      rw [hx, cut?_append_self] at hcut
      cases hcut
      exact ⟨[], y', by rw [hx', cut?_append_self], hy⟩
    · have hstart' := mt (prefix_of_reissued (plainText_headLead d) (.char c h)) hstart
      rw [cut?_cons hstart] at hcut
      obtain ⟨⟨head', after'⟩, hcut, heq⟩ := Option.map_eq_some_iff.mp hcut
      cases heq
      obtain ⟨head'', after'', hcut', hafter⟩ := ih hcut
      exact ⟨c :: head'', after'', by rw [cut?_cons hstart', hcut']; rfl, hafter⟩
  | token n h ih =>
    rw [(passes_freshToken hd).cut?] at hcut
    obtain ⟨⟨head', after'⟩, hcut, heq⟩ := Option.map_eq_some_iff.mp hcut
    cases heq
    obtain ⟨head'', after'', hcut', hafter⟩ := ih hcut
    refine ⟨issuedToken d n ++ head'', after'', ?_, hafter⟩
    rw [(passes_issuedToken hd n).cut?, hcut']
    rfl

/-! ## Code -/

section Code

variable {quote last : Option Char}

lemma quoteBelow_of_inert {c : Char} (hc : Inert c) (hquote : ∀ q ∈ quote, ¬ Inert q) :
    quoteBelow quote c = quote := by
  cases quote with
  | none =>
    apply if_neg
    rintro (rfl | rfl) <;> exact absurd hc (by decide)
  | some q =>
    apply if_neg
    rintro rfl
    exact hquote c rfl hc

lemma reads_append_inert {s : Text} (hs : ∀ c ∈ s, Inert c) (hquote : ∀ q ∈ quote, ¬ Inert q)
    (t : Text) : ReadsCode quote (s ++ t) last ↔ ReadsCode quote t last := by
  induction s with
  | nil => exact Iff.rfl
  | cons c s ih =>
    have hc : Inert c := hs c List.mem_cons_self
    have ih := ih fun c' hc' => hs c' (List.mem_cons_of_mem c hc')
    have hbelow := quoteBelow_of_inert hc hquote
    constructor
    · intro h
      cases h with
      | cons hcode h =>
        rw [hbelow] at h
        exact ih.mp h
    · intro h
      refine .cons (fun _ hhash => hc.2 (by simp [hhash])) ?_
      rw [hbelow]
      exact ih.mpr h

lemma ReadsCode.reissued (hreads : ReadsCode quote x last) (hquote : ∀ q ∈ quote, ¬ Inert q)
    (h : Reissued d x x') : ReadsCode quote x' last := by
  induction h generalizing quote with
  | nil => exact hreads
  | char c h ih =>
    cases hreads with
    | cons hcode hreads => exact .cons hcode (ih hreads (not_inert_quoteBelow hquote c))
  | token n h ih =>
    rw [reads_append_inert (inert_issuedToken d n) hquote]
    exact ih ((reads_append_inert (inert_freshToken d) hquote _).mp hreads) hquote

end Code

/-- A reissued line leads up to its name as the line does. -/
theorem Leads.reissued {quote : Option Char} (hleads : Leads d x quote) (h : Reissued d x x') :
    Leads d x' quote := by
  obtain ⟨⟨head, blanks, hblanks, hcut⟩, hreads⟩ := hleads
  obtain ⟨head', blanks', hcut', hblanks'⟩ := h.exists_cut? hcut
  rw [hblanks'.eq_of_blank hblanks] at hcut'
  refine ⟨⟨head', blanks, hblanks, hcut'⟩, fun hd => ?_⟩
  exact (hreads hd).reissued (fun q hq => by cases hq) h

/-! ## Replaced names -/

section Replacement

variable {old new : Text}

/-- Replacing a name without identifier by its issued name reissues the text. -/
lemma reissued_replaceAll (d : Dialect) (n : ℕ) (rest t : Text) :
    Reissued d t (Text.replaceAll (freshToken d ++ rest) (issuedToken d n ++ rest) t) := by
  have hold : freshToken d ++ rest ≠ [] :=
    List.append_ne_nil_of_left_ne_nil (freshToken_ne_nil d) rest
  induction t using occurrence_induction hold with
  | nil => exact .nil
  | here t ih =>
    rw [replaceAll_append_old hold, List.append_assoc, List.append_assoc]
    exact .token n ((Reissued.refl d rest).append ih)
  | cons c t hstart ih =>
    rw [replaceAll_cons hstart]
    exact .char c ih

/-- Two parts of a text are replaced apart from each other, unless the old name stands across the
border between them. -/
lemma replaceAll_append_cases (hold : old ≠ []) (new s t : Text) :
    Text.replaceAll old new (s ++ t) = Text.replaceAll old new s ++ Text.replaceAll old new t ∨
      ∃ s₁ s₂ t₁ t₂, s = s₁ ++ s₂ ∧ t = t₁ ++ t₂ ∧ old = s₂ ++ t₁ ∧ s₂ ≠ [] ∧ t₁ ≠ [] ∧
        Text.replaceAll old new (s ++ t) =
          Text.replaceAll old new s₁ ++ (new ++ Text.replaceAll old new t₂) := by
  induction s using occurrence_induction hold with
  | nil => exact .inl rfl
  | here s ih =>
    rcases ih with hsplit | ⟨s₁, s₂, t₁, t₂, rfl, rfl, holdeq, hs₂, ht₁, hsplit⟩
    · left
      rw [List.append_assoc, replaceAll_append_old hold, hsplit, replaceAll_append_old hold,
        List.append_assoc]
    · right
      refine ⟨old ++ s₁, s₂, t₁, t₂, (List.append_assoc ..).symm, rfl, holdeq, hs₂, ht₁, ?_⟩
      rw [List.append_assoc old, replaceAll_append_old hold, hsplit, replaceAll_append_old hold,
        List.append_assoc]
  | cons c s hs ih =>
    by_cases hst : old <+: c :: s ++ t
    · -- the name begins in the first part and ends in the second one
      right
      rcases List.prefix_or_prefix_of_prefix hst (List.prefix_append (c :: s) t) with h | h
      · exact absurd h hs
      obtain ⟨t₁, rfl⟩ := h
      obtain ⟨t₂, ht₂⟩ := hst
      rw [List.append_assoc] at ht₂
      obtain rfl := List.append_cancel_left ht₂
      refine ⟨[], c :: s, t₁, t₂, rfl, rfl, rfl, List.cons_ne_nil c s, ?_, ?_⟩
      · rintro rfl
        rw [List.append_nil] at hs
        exact hs List.prefix_rfl
      · rw [← List.append_assoc, replaceAll_append_old hold]
        rfl
    · rw [List.cons_append] at hst ⊢
      rw [replaceAll_cons hst, replaceAll_cons hs]
      rcases ih with hsplit | ⟨s₁, s₂, t₁, t₂, rfl, rfl, holdeq, hs₂, ht₁, hsplit⟩
      · left
        rw [hsplit, List.cons_append]
      · right
        refine ⟨c :: s₁, s₂, t₁, t₂, rfl, rfl, holdeq, hs₂, ht₁, ?_⟩
        have hs₁ : ¬ old <+: c :: s₁ := by
          intro h
          apply hst
          rw [List.append_assoc]
          exact h.trans (List.prefix_append (c :: s₁) _)
        rw [hsplit, replaceAll_cons hs₁, List.cons_append]

end Replacement

end TestCatalog.Proofs
