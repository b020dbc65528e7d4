import TestCatalog.Proofs.IssuedNames

/-!
# Issued headers

A line is issued where its name takes an issued mark. What filtering and reading do to the line they
do to the issued line as well, so that an issued header starts a case with an identifier, declares
the assigned name and is followed by the opening that followed it before.
-/

namespace TestCatalog.Proofs

/-! ## Issued lines -/

/-- Two texts behind a mark are equal, or equal for `m` characters from the mark on and respelled
below that. -/
def Agree (d : Dialect) (m : ℕ) (y y' : Text) : Prop :=
  y' = y ∨ ∃ s z z', m ≤ (freshMark d).length + s.length ∧ y = s ++ z ∧ y' = s ++ z' ∧
    Respelled d z z'

/-- The second line has an issued mark for the fresh mark of the first one, and no other change in
the first `m` characters of the name. -/
inductive Issued (d : Dialect) (n m : ℕ) : Text → Text → Prop where
  | intro {l y y' : Text} (hl : AllBlank l) (hy : Agree d m y y') :
      Issued d n m (l ++ (headLead d ++ freshMark d ++ y)) (l ++ (headLead d ++ issuedMark d n ++ y'))

variable {d : Dialect} {n m : ℕ} {t t' y y' : Text}

lemma Agree.respelled (h : Agree d m y y') : Respelled d y y' := by
  obtain rfl | ⟨s, z, z', -, rfl, rfl, hz⟩ := h
  · exact respelled_refl d _
  · exact respelled_append (respelled_refl d s) hz

lemma Agree.append (h : Agree d m y y') (w : Text) : Agree d m (y ++ w) (y' ++ w) := by
  obtain rfl | ⟨s, z, z', hm, rfl, rfl, hz⟩ := h
  · exact .inl rfl
  · exact .inr ⟨s, z ++ w, z' ++ w, hm, List.append_assoc .., List.append_assoc ..,
      respelled_append hz (respelled_refl d w)⟩

lemma Agree.dropEndWhile {p : Char → Bool} (hp : ∀ c, Inert c → p c = false)
    (h : Agree d m y y') : Agree d m (Text.dropEndWhile p y) (Text.dropEndWhile p y') := by
  obtain rfl | ⟨s, z, z', hm, rfl, rfl, hz⟩ := h
  · exact .inl rfl
  · have hdrop := respelled_dropEndWhile hp hz
    rw [dropEndWhile_append, dropEndWhile_append]
    by_cases hnil : Text.dropEndWhile p z = []
    · rw [if_pos hnil, if_pos ((respelled_eq_nil_iff hdrop).mp hnil)]
      exact .inl rfl
    · rw [if_neg hnil, if_neg (mt (respelled_eq_nil_iff hdrop).mpr hnil)]
      exact .inr ⟨s, _, _, hm, rfl, rfl, hdrop⟩

theorem Issued.respelled (h : Issued d n m t t') : Respelled d t t' := by
  obtain ⟨hl, hy⟩ := h
  rw [List.append_assoc, List.append_assoc]
  exact respelled_append (respelled_refl d _)
    (respelled_append (respelled_refl d _) (.mark n hy.respelled))

lemma Issued.append (h : Issued d n m t t') (w : Text) : Issued d n m (t ++ w) (t' ++ w) := by
  obtain ⟨hl, hy⟩ := h
  have happend := Issued.intro (n := n) hl (hy.append w)
  simpa only [List.append_assoc] using happend

lemma Issued.append_left (h : Issued d n m t t') {l : Text} (hl : AllBlank l) :
    Issued d n m (l ++ t) (l ++ t') := by
  obtain ⟨hl', hy⟩ := h
  have happend := Issued.intro (n := n) (allBlank_append.mpr ⟨hl, hl'⟩) hy
  simpa only [List.append_assoc] using happend

lemma dropEndWhile_append_mark {p : Char → Bool} (hp : ∀ c, Inert c → p c = false) {mark : Text}
    (hmark : ∀ c ∈ mark, Inert c) (hne : mark ≠ []) (s y : Text) :
    Text.dropEndWhile p (s ++ mark ++ y) = s ++ mark ++ Text.dropEndWhile p y := by
  have hself := dropEndWhile_eq_self fun c hc => hp c (hmark c hc)
  rw [dropEndWhile_append, dropEndWhile_append, hself, if_neg hne]
  by_cases hy : Text.dropEndWhile p y = []
  · rw [if_pos hy, hy, List.append_nil]
  · rw [if_neg hy]

theorem Issued.dropEndWhile {p : Char → Bool} (hp : ∀ c, Inert c → p c = false)
    (h : Issued d n m t t') : Issued d n m (Text.dropEndWhile p t) (Text.dropEndWhile p t') := by
  obtain @⟨l, y, y', hl, hy⟩ := h
  have hfresh := dropEndWhile_append_mark hp (inert_freshMark d) (freshMark_ne_nil d)
    (l ++ headLead d) y
  have hissued := dropEndWhile_append_mark hp (inert_issuedMark d n) (issuedMark_ne_nil d n)
    (l ++ headLead d) y'
  simp only [List.append_assoc] at hfresh hissued
  rw [List.append_assoc (headLead d), List.append_assoc (headLead d), hfresh, hissued]
  have hdrop := Issued.intro (n := n) hl (hy.dropEndWhile hp)
  simpa only [List.append_assoc] using hdrop

lemma not_isBlank_head_lead (d : Dialect) {mark : Text} (hmark : ∀ c ∈ mark, Inert c) (y : Text) :
    ∀ c ∈ (headLead d ++ mark ++ y).head?, mark ≠ [] → Text.isBlank c = false := by
  have hhead : ∀ c ∈ (headLead d).head?, Text.isBlank c = false := by cases d <;> decide
  intro c hc hne
  cases hlead : headLead d with
  | cons c' lead =>
    rw [hlead] at hc hhead
    exact hhead c hc
  | nil =>
    obtain ⟨c', mark', rfl⟩ := List.exists_cons_of_ne_nil hne
    rw [hlead] at hc
    obtain rfl : c' = c := by simpa using hc
    exact (hmark c' List.mem_cons_self).1

lemma Issued.trim_eq (h : Issued d n m t t') : ∃ y y', Agree d m y y' ∧
    Text.trim t = headLead d ++ freshMark d ++ y ∧
    Text.trim t' = headLead d ++ issuedMark d n ++ y' := by
  obtain @⟨l, y, y', hl, hy⟩ := h
  have hblank (c : Char) (hc : Inert c) : Text.isBlank c = false := hc.1
  refine ⟨_, _, hy.dropEndWhile hblank, ?_, ?_⟩
  · have hhead := not_isBlank_head_lead d (inert_freshMark d) y
    rw [trim_append_left hl, Text.trim, trimStart_eq_self fun c hc => hhead c hc (freshMark_ne_nil d)]
    exact dropEndWhile_append_mark hblank (inert_freshMark d) (freshMark_ne_nil d) _ _
  · have hhead := not_isBlank_head_lead d (inert_issuedMark d n) y'
    rw [trim_append_left hl, Text.trim,
      trimStart_eq_self fun c hc => hhead c hc (issuedMark_ne_nil d n)]
    exact dropEndWhile_append_mark hblank (inert_issuedMark d n) (issuedMark_ne_nil d n) _ _

theorem Issued.trim (h : Issued d n m t t') : Issued d n m (Text.trim t) (Text.trim t') := by
  obtain ⟨y, y', hy, ht, ht'⟩ := h.trim_eq
  rw [ht, ht']
  exact .intro allBlank_nil hy

/-- Where a line declares a fresh name, replacing the name issues the line. -/
theorem issued_replaceAll (d : Dialect) (n : ℕ) (rest : Text) {l : Text} (hl : AllBlank l)
    (z : Text) :
    Issued d n (freshMark d ++ rest).length (l ++ (headLead d ++ (freshMark d ++ rest) ++ z))
      (Text.replaceAll (freshMark d ++ rest) (issuedMark d n ++ rest)
        (l ++ (headLead d ++ (freshMark d ++ rest) ++ z))) := by
  have hold : freshMark d ++ rest ≠ [] :=
    List.append_ne_nil_of_left_ne_nil (freshMark_ne_nil d) rest
  have hlead : ∀ c ∈ headLead d, (freshMark d).head? ≠ some c := by cases d <;> decide
  have hfirst (c : Char) (hc : c ∈ l ++ headLead d) : (freshMark d ++ rest).head? ≠ some c := by
    have hhead : (freshMark d ++ rest).head? = (freshMark d).head? := by cases d <;> rfl
    rw [hhead]
    rcases List.mem_append.mp hc with hc | hc
    · intro heq
      have hbare := (inert_freshMark d c (List.mem_of_mem_head? heq)).1
      rw [hl c hc] at hbare
      cases hbare
    · exact hlead c hc
  have hreplace : Text.replaceAll (freshMark d ++ rest) (issuedMark d n ++ rest) _ = _ :=
    replaceAll_append_left hold hfirst (freshMark d ++ rest ++ z)
  rw [replaceAll_append_old hold] at hreplace
  have hissued := Issued.intro (n := n) (m := (freshMark d ++ rest).length) hl
    (.inr ⟨rest, z, _, (List.length_append ..).le, rfl, rfl, respelled_replaceAll d n rest z⟩)
  simp only [List.append_assoc] at hreplace hissued ⊢
  rwa [hreplace]

/-! ## Names on issued headers -/

lemma takeWhile_codeFrom_append (p : Char → Bool) (hp : ∀ c, Inert c → p c = true)
    (quote : Option Char) (hquote : ∀ q ∈ quote, ¬ Inert q) (s : Text) :
    (∀ t, (Dialect.codeFrom quote (s ++ t)).takeWhile p = (Dialect.codeFrom quote s).takeWhile p) ∨
      ∃ f : Text → Text, (∀ t t', Respelled d t t' → Respelled d (f t) (f t')) ∧
        ∀ t, (Dialect.codeFrom quote (s ++ t)).takeWhile p = s ++ f t := by
  induction s generalizing quote with
  | nil => exact .inr ⟨fun t => (Dialect.codeFrom quote t).takeWhile p,
      fun t t' h => respelled_takeWhile hp (respelled_codeFrom quote hquote h), fun t => rfl⟩
  | cons c s ih =>
    -- the rest of the line is read in the state that the character leaves
    have hnext (next : Option Char) (hnext : ∀ q ∈ next, ¬ Inert q)
        (hcode : ∀ t, Dialect.codeFrom quote (c :: t) = c :: Dialect.codeFrom next t) :
        (∀ t, (Dialect.codeFrom quote (c :: s ++ t)).takeWhile p =
            (Dialect.codeFrom quote (c :: s)).takeWhile p) ∨
          ∃ f : Text → Text, (∀ t t', Respelled d t t' → Respelled d (f t) (f t')) ∧
            ∀ t, (Dialect.codeFrom quote (c :: s ++ t)).takeWhile p = c :: s ++ f t := by
      simp only [List.cons_append, hcode, List.takeWhile_cons]
      by_cases hc : p c = true
      · rcases ih next hnext with hcut | ⟨f, hf, hsplit⟩
        · exact .inl fun t => by rw [if_pos hc, if_pos hc, hcut]
        · exact .inr ⟨f, hf, fun t => by rw [if_pos hc, hsplit]⟩
      · exact .inl fun t => by rw [if_neg hc, if_neg hc]
    cases quote with
    | none =>
      by_cases hhash : c = '#'
      · refine .inl fun t => ?_
        rw [List.cons_append, Dialect.codeFrom, Dialect.codeFrom, if_pos hhash, if_pos hhash]
      · refine hnext (if c = '\'' ∨ c = '"' then some c else none) ?_ fun t => ?_
        · intro q hq
          split_ifs at hq with hopen
          · cases hq
            rcases hopen with rfl | rfl <;> decide
          · cases hq
        · rw [Dialect.codeFrom, if_neg hhash]
    | some q =>
      refine hnext (if c = q then none else some q) ?_ fun t => by rw [Dialect.codeFrom]
      intro q' hq'
      split_ifs at hq' with hclose
      · cases hq'
      · exact hquote q' hq'

/-- Behind a start of a line its name ends within the start, or goes on with what follows. -/
lemma nameSpan_append (d : Dialect) (s : Text) :
    (∀ t, nameSpan d (s ++ t) = nameSpan d s) ∨
      ∃ f : Text → Text, (∀ t t', Respelled d t t' → Respelled d (f t) (f t')) ∧
        ∀ t, nameSpan d (s ++ t) = s ++ f t := by
  cases d with
  | annotatedFunction =>
    refine takeWhile_codeFrom_append _ (fun c hc => ?_) none (fun q hq => by cases hq) s
    have hne : c ≠ '(' := fun h => hc.2 (by simp [h])
    simpa using hne
  | keywordTable => exact .inr ⟨id, fun _ _ h => h, fun _ => rfl⟩
  | featureScenario => exact .inr ⟨id, fun _ _ h => h, fun _ => rfl⟩

lemma trimEnd_append_eq {s z z' : Text} (hz : Respelled d z z')
    (hlen : (Text.trimEnd (s ++ z)).length ≤ s.length) :
    Text.trimEnd (s ++ z') = Text.trimEnd (s ++ z) := by
  have htrim : Respelled d (Text.trimEnd z) (Text.trimEnd z') := respelled_trimEnd hz
  have happend (w : Text) : Text.trimEnd (s ++ w) =
      if Text.trimEnd w = [] then Text.trimEnd s else s ++ Text.trimEnd w :=
    dropEndWhile_append _ _ _
  rw [happend, happend]
  by_cases hnil : Text.trimEnd z = []
  · rw [if_pos hnil, if_pos ((respelled_eq_nil_iff htrim).mp hnil)]
  · rw [happend, if_neg hnil, List.length_append] at hlen
    have hpos := List.length_pos_iff.mpr hnil
    omega

lemma trimEnd_nameSpan_of_agree
    (h : Agree d ((freshMark d).length + (Text.trimEnd (nameSpan d y)).length) y y') :
    Text.trimEnd (nameSpan d y') = Text.trimEnd (nameSpan d y) := by
  obtain rfl | ⟨s, z, z', hm, rfl, rfl, hz⟩ := h
  · rfl
  · rcases nameSpan_append d s with hcut | ⟨f, hf, hsplit⟩
    · rw [hcut, hcut]
    · rw [hsplit] at hm
      rw [hsplit, hsplit]
      exact trimEnd_append_eq (hf z z' hz) (by omega)

lemma nameSpan_append_inert {s : Text} (hs : ∀ c ∈ s, Inert c) (t : Text) :
    nameSpan d (s ++ t) = s ++ nameSpan d t := by
  cases d with
  | annotatedFunction =>
    have hparen : ∀ c ∈ s, (decide (c ≠ '(')) = true := by
      intro c hc
      have hne : c ≠ '(' := fun h => (hs c hc).2 (by simp [h])
      simpa using hne
    have hcode : Dialect.codePart (s ++ t) = s ++ Dialect.codePart t :=
      codeFrom_append hs none (fun q hq => by cases hq) t
    rw [nameSpan, hcode, List.takeWhile_append_of_pos hparen]
    rfl
  | keywordTable => rfl
  | featureScenario => rfl

lemma nameOfHeader_mark {mark : Text} (hmark : ∀ c ∈ mark, Inert c) (hne : mark ≠ []) (y : Text) :
    d.nameOfHeader (headLead d ++ mark ++ y) = mark ++ Text.trimEnd (nameSpan d y) := by
  have hbare : BareEnds mark :=
    ⟨fun c hc => (hmark c (List.mem_of_mem_head? hc)).1,
      fun c hc => (hmark c (List.mem_of_getLast? hc)).1⟩
  rw [List.append_assoc, Dialect.nameOfHeader, nameOnLine?_lead, nameSpan_append_inert hmark,
    trimmed?_append hbare hne, Option.getD_some]

lemma prefix_lead_issuedMark (d : Dialect) (n : ℕ) :
    headMark d .update <+: headLead d ++ issuedMark d n := by
  cases d with
  | annotatedFunction => exact ⟨Text.ofNat n ++ "_", rfl⟩
  | keywordTable => exact ⟨"-" ++ Text.ofNat n ++ ":", rfl⟩
  | featureScenario => exact ⟨"_" ++ Text.ofNat n ++ "_", rfl⟩

variable {rest : Text}

/-- An issued header starts a case with an identifier. -/
theorem Issued.startsWith_update (h : Issued d n m t t') :
    Text.startsWith (headMark d .update) (Text.trim t') = true := by
  obtain ⟨y, y', -, -, ht'⟩ := h.trim_eq
  rw [ht']
  exact startsWith_iff.mpr ((prefix_lead_issuedMark d n).trans (List.prefix_append _ _))

/-- An issued header declares the issued name. -/
theorem Issued.nameOfHeader (h : Issued d n (freshMark d ++ rest).length t t')
    (hname : d.nameOfHeader (Text.trim t) = freshMark d ++ rest) :
    d.nameOfHeader (Text.trim t') = issuedMark d n ++ rest := by
  obtain ⟨y, y', hy, ht, ht'⟩ := h.trim_eq
  rw [ht, nameOfHeader_mark (inert_freshMark d) (freshMark_ne_nil d)] at hname
  obtain rfl := List.append_cancel_left hname
  rw [List.length_append] at hy
  rw [ht', nameOfHeader_mark (inert_issuedMark d n) (issuedMark_ne_nil d n),
    trimEnd_nameSpan_of_agree hy]

/-! ## Openings of issued cases -/

lemma follows_expectQuotes (case case' : Text) :
    Follows (Dialect.expectQuotes case) (Dialect.expectQuotes case') := by
  intro c a c' h
  unfold Yields Dialect.expectQuotes at h ⊢
  rcases hquotes : Dialect.takeQuotes c.lineNumber c.rest with ⟨found, c₁⟩
  simp only [hquotes] at h ⊢
  cases found with
  | false => cases h.1
  | true => exact h

lemma follows_expectMark (case case' : Text) :
    Follows (Dialect.expectMark case) (Dialect.expectMark case') := by
  intro c a c' h
  unfold Yields Dialect.expectMark at h ⊢
  cases hnext : c.next? with
  | none =>
    simp only [hnext] at h
    cases h.1
  | some next =>
    simp only [hnext] at h ⊢
    split_ifs at h ⊢ with hmark
    · exact h
    · cases h.1

lemma skipSignature_respelled (h : Respelled d t t') (depth : Int) (k : ℕ) (ls : List Text) :
    Dialect.skipSignature depth t' k ls = Dialect.skipSignature depth t k ls := by
  have hstep := signatureStep_respelled depth h
  cases ls with
  | nil => rw [Dialect.skipSignature, Dialect.skipSignature, hstep]
  | cons next rest => rw [Dialect.skipSignature, Dialect.skipSignature, hstep]

lemma follows_expectSignature (h : Respelled d t t') (case case' : Text) :
    Follows (Dialect.expectSignature t case) (Dialect.expectSignature t' case') := by
  intro c a c' hyields
  unfold Yields Dialect.expectSignature at hyields ⊢
  rcases hends : Dialect.skipSignature 0 t c.lineNumber c.rest with ⟨ends, c₁⟩
  simp only [skipSignature_respelled h, hends] at hyields ⊢
  cases ends with
  | false => cases hyields.1
  | true => exact hyields

theorem follows_expectOpening (h : Respelled d t t') (case case' : Text) :
    Follows (d.expectOpening t case) (d.expectOpening t' case') := by
  cases d with
  | annotatedFunction =>
    exact follows_bind (follows_expectSignature h case case') fun _ => follows_expectQuotes case case'
  | keywordTable => exact follows_expectMark case case'
  | featureScenario => exact follows_expectQuotes case case'

end TestCatalog.Proofs
