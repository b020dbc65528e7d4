import TestCatalog.Proofs.Headers

/-!
# Respelled texts

When a case is issued an identifier its source changes where its name stands: a fresh mark becomes an
issued one. Two texts are `Respelled` if they differ in such marks alone. The marks hold no character
that trimming, continuing, quoting, commenting or nesting looks at, so that all of these see no
difference.
-/

namespace TestCatalog.Proofs

/-- How the name of a case without identifier starts, if the case can be issued one. -/
def freshMark : Dialect → Text
  | .annotatedFunction | .featureScenario => "test_NEW_"
  | .keywordTable => "<NEW>:"

/-- How the name of a case starts once it is issued the number `n`. -/
def issuedMark : Dialect → (n : ℕ) → Text
  | .annotatedFunction, n | .featureScenario, n => "test_gid_" ++ Text.ofNat n ++ "_"
  | .keywordTable, n => "TC-GID-" ++ Text.ofNat n ++ ":"

inductive Respelled (d : Dialect) : Text → Text → Prop where
  | nil : Respelled d [] []
  | char (c : Char) {x x' : Text} (h : Respelled d x x') : Respelled d (c :: x) (c :: x')
  | mark (n : ℕ) {x x' : Text} (h : Respelled d x x') :
      Respelled d (freshMark d ++ x) (issuedMark d n ++ x')

/-! ## Marks -/

def Inert (c : Char) : Prop :=
  Text.isBlank c = false ∧ c ∉ ['\\', '#', '\'', '"', '(', ')']

instance (c : Char) : Decidable (Inert c) :=
  inferInstanceAs (Decidable (_ ∧ _))

lemma inert_freshMark (d : Dialect) : ∀ c ∈ freshMark d, Inert c := by
  cases d <;> decide

lemma inert_of_isDigit {c : Char} (h : c.isDigit = true) : Inert c := by
  refine ⟨not_isBlank_of_isDigit h, fun hmem => ?_⟩
  simp only [List.mem_cons, List.not_mem_nil, or_false] at hmem
  rcases hmem with rfl | rfl | rfl | rfl | rfl | rfl <;> exact absurd h (by decide)

lemma isDigit_of_mem_ofNat {n : ℕ} {c : Char} (h : c ∈ Text.ofNat n) : c.isDigit = true :=
  Nat.isDigit_of_mem_toDigits (by decide) (by decide) h

lemma inert_issuedMark (d : Dialect) (n : ℕ) : ∀ c ∈ issuedMark d n, Inert c := by
  have hmark (lead tail : Text) (hlead : ∀ c ∈ lead, Inert c) (htail : ∀ c ∈ tail, Inert c) :
      ∀ c ∈ lead ++ Text.ofNat n ++ tail, Inert c := by
    intro c hc
    rw [List.mem_append, List.mem_append] at hc
    rcases hc with (hc | hc) | hc
    · exact hlead c hc
    · exact inert_of_isDigit (isDigit_of_mem_ofNat hc)
    · exact htail c hc
  cases d with
  | annotatedFunction => exact hmark "test_gid_" "_" (by decide) (by decide)
  | keywordTable => exact hmark "TC-GID-" ":" (by decide) (by decide)
  | featureScenario => exact hmark "test_gid_" "_" (by decide) (by decide)

lemma freshMark_ne_nil (d : Dialect) : freshMark d ≠ [] := by
  cases d <;> decide

/-- The character that ends the marks of a dialect. -/
def markEnd : Dialect → Char
  | .annotatedFunction | .featureScenario => '_'
  | .keywordTable => ':'

lemma freshMark_eq (d : Dialect) : ∃ mark, freshMark d = mark ++ [markEnd d] := by
  cases d with
  | annotatedFunction => exact ⟨"test_NEW", by decide⟩
  | keywordTable => exact ⟨"<NEW>", by decide⟩
  | featureScenario => exact ⟨"test_NEW", by decide⟩

lemma issuedMark_eq (d : Dialect) (n : ℕ) : ∃ mark, issuedMark d n = mark ++ [markEnd d] := by
  cases d <;> exact ⟨_, rfl⟩

lemma issuedMark_ne_nil (d : Dialect) (n : ℕ) : issuedMark d n ≠ [] := by
  obtain ⟨mark, h⟩ := issuedMark_eq d n
  rw [h]
  exact List.append_ne_nil_of_right_ne_nil mark (List.cons_ne_nil _ _)

lemma getLast?_issuedMark (d : Dialect) (n : ℕ) :
    (issuedMark d n).getLast? = (freshMark d).getLast? := by
  obtain ⟨mark, h⟩ := freshMark_eq d
  obtain ⟨mark', h'⟩ := issuedMark_eq d n
  rw [h, h', List.getLast?_concat, List.getLast?_concat]

variable {d : Dialect} {x x' y y' : Text}

lemma respelled_refl (d : Dialect) (x : Text) : Respelled d x x := by
  induction x with
  | nil => exact .nil
  | cons c x ih => exact .char c ih

lemma respelled_append (hx : Respelled d x x') (hy : Respelled d y y') :
    Respelled d (x ++ y) (x' ++ y') := by
  induction hx with
  | nil => exact hy
  | char c _ ih => exact .char c ih
  | mark n _ ih =>
    rw [List.append_assoc, List.append_assoc]
    exact .mark n ih

lemma respelled_eq_nil_iff (h : Respelled d x x') : x = [] ↔ x' = [] := by
  cases h with
  | nil => exact Iff.rfl
  | char c h => simp
  | mark n h => simp [freshMark_ne_nil, issuedMark_ne_nil]

lemma getLast?_respelled (h : Respelled d x x') : x'.getLast? = x.getLast? := by
  induction h with
  | nil => rfl
  | @char c x x' h ih =>
    rw [← List.singleton_append, List.getLast?_append, ih, ← List.getLast?_append]
    rfl
  | mark n h ih => rw [List.getLast?_append, List.getLast?_append, ih, getLast?_issuedMark]

lemma mem_respelled_iff {c : Char} (hc : ¬ Inert c) (h : Respelled d x x') : c ∈ x' ↔ c ∈ x := by
  induction h with
  | nil => exact Iff.rfl
  | char c' h ih => rw [List.mem_cons, List.mem_cons, ih]
  | mark n h ih =>
    have hfresh : c ∉ freshMark d := fun hmem => hc (inert_freshMark d c hmem)
    have hissued : c ∉ issuedMark d n := fun hmem => hc (inert_issuedMark d n c hmem)
    rw [List.mem_append, List.mem_append, ih]
    tauto

/-! ## Ends -/

lemma dropEndWhile_append (p : Char → Bool) (s t : Text) :
    Text.dropEndWhile p (s ++ t) =
      if Text.dropEndWhile p t = [] then Text.dropEndWhile p s else s ++ Text.dropEndWhile p t := by
  unfold Text.dropEndWhile
  rw [List.reverse_append, List.dropWhile_append]
  by_cases h : t.reverse.dropWhile p = []
  · simp [h]
  · simp [h]

lemma dropEndWhile_eq_self {p : Char → Bool} {t : Text} (h : ∀ c ∈ t, p c = false) :
    Text.dropEndWhile p t = t := by
  unfold Text.dropEndWhile
  cases hr : t.reverse with
  | nil => simpa using hr.symm
  | cons c r =>
    have hc : c ∈ t := by
      rw [← List.mem_reverse, hr]
      exact List.mem_cons_self
    rw [List.dropWhile_cons_of_neg (by simp [h c hc]), ← hr, List.reverse_reverse]

lemma respelled_dropEndWhile {p : Char → Bool} (hp : ∀ c, Inert c → p c = false)
    (h : Respelled d x x') : Respelled d (Text.dropEndWhile p x) (Text.dropEndWhile p x') := by
  induction h with
  | nil => exact .nil
  | @char c x x' h ih =>
    rw [← List.singleton_append, ← List.singleton_append (l := x'), dropEndWhile_append,
      dropEndWhile_append]
    by_cases hx : Text.dropEndWhile p x = []
    · rw [if_pos hx, if_pos ((respelled_eq_nil_iff ih).mp hx)]
      exact respelled_refl d _
    · rw [if_neg hx, if_neg (mt (respelled_eq_nil_iff ih).mpr hx)]
      exact .char c ih
  | @mark n x x' h ih =>
    have hfresh := dropEndWhile_eq_self fun c hc => hp c (inert_freshMark d c hc)
    have hissued := dropEndWhile_eq_self fun c hc => hp c (inert_issuedMark d n c hc)
    rw [dropEndWhile_append, dropEndWhile_append, hfresh, hissued]
    by_cases hx : Text.dropEndWhile p x = []
    · rw [if_pos hx, if_pos ((respelled_eq_nil_iff ih).mp hx)]
      have hmark := Respelled.mark (d := d) n .nil
      rwa [List.append_nil, List.append_nil] at hmark
    · rw [if_neg hx, if_neg (mt (respelled_eq_nil_iff ih).mpr hx)]
      exact .mark n ih

lemma respelled_trimEnd (h : Respelled d x x') :
    Respelled d (Text.trimEnd x) (Text.trimEnd x') :=
  respelled_dropEndWhile (fun _ hc => hc.1) h

/-! ## Code -/

lemma codeFrom_append {s : Text} (hs : ∀ c ∈ s, Inert c) (quote : Option Char)
    (hquote : ∀ q ∈ quote, ¬ Inert q) (t : Text) :
    Dialect.codeFrom quote (s ++ t) = s ++ Dialect.codeFrom quote t := by
  induction s with
  | nil => rfl
  | cons c s ih =>
    have hc : Inert c := hs c List.mem_cons_self
    have ih := ih fun c' hc' => hs c' (List.mem_cons_of_mem c hc')
    rw [List.cons_append]
    cases quote with
    | none =>
      have hhash : c ≠ '#' := fun h => hc.2 (by simp [h])
      have hopen : ¬ (c = '\'' ∨ c = '"') := fun h => hc.2 (by rcases h with h | h <;> simp [h])
      rw [Dialect.codeFrom, if_neg hhash, if_neg hopen, ih]
      rfl
    | some q =>
      have hq : c ≠ q := fun h => hquote q rfl (h ▸ hc)
      rw [Dialect.codeFrom, if_neg hq, ih]
      rfl

lemma respelled_codeFrom (quote : Option Char) (hquote : ∀ q ∈ quote, ¬ Inert q)
    (h : Respelled d x x') :
    Respelled d (Dialect.codeFrom quote x) (Dialect.codeFrom quote x') := by
  induction h generalizing quote with
  | nil => cases quote <;> exact .nil
  | char c h ih =>
    cases quote with
    | none =>
      unfold Dialect.codeFrom
      by_cases hhash : c = '#'
      · rw [if_pos hhash, if_pos hhash]
        exact .nil
      · rw [if_neg hhash, if_neg hhash]
        refine .char c (ih _ ?_)
        intro q hq
        split_ifs at hq with hopen
        · cases hq
          rcases hopen with rfl | rfl <;> decide
        · cases hq
    | some q =>
      refine .char c (ih _ ?_)
      intro q' hq'
      split_ifs at hq' with hclose
      · cases hq'
      · exact hquote q' hq'
  | mark n h ih =>
    rw [codeFrom_append (inert_freshMark d) quote hquote,
      codeFrom_append (inert_issuedMark d n) quote hquote]
    exact .mark n (ih quote hquote)

lemma respelled_codePart (h : Respelled d x x') :
    Respelled d (Dialect.codePart x) (Dialect.codePart x') :=
  respelled_codeFrom none (fun _ hq => by cases hq) h

lemma respelled_takeWhile {p : Char → Bool} (hp : ∀ c, Inert c → p c = true)
    (h : Respelled d x x') : Respelled d (x.takeWhile p) (x'.takeWhile p) := by
  induction h with
  | nil => exact .nil
  | char c h ih =>
    by_cases hc : p c = true
    · rw [List.takeWhile_cons_of_pos hc, List.takeWhile_cons_of_pos hc]
      exact .char c ih
    · rw [List.takeWhile_cons_of_neg hc, List.takeWhile_cons_of_neg hc]
      exact .nil
  | mark n h ih =>
    rw [List.takeWhile_append_of_pos fun c hc => hp c (inert_freshMark d c hc),
      List.takeWhile_append_of_pos fun c hc => hp c (inert_issuedMark d n c hc)]
    exact .mark n ih

lemma openParens_respelled (h : Respelled d x x') :
    Dialect.openParens x' = Dialect.openParens x := by
  have hzero {s : Text} (hs : ∀ c ∈ s, Inert c) : Dialect.openParens s = 0 := by
    refine openParens_eq_zero fun c hc hmem => (hs c hc).2 ?_
    simp only [List.mem_cons, List.not_mem_nil, or_false] at hmem ⊢
    tauto
  induction h with
  | nil => rfl
  | @char c x x' h ih =>
    have hcons (t : Text) :
        Dialect.openParens (c :: t) = Dialect.openParens [c] + Dialect.openParens t :=
      openParens_append [c] t
    rw [hcons x', hcons x, ih]
  | mark n h ih =>
    rw [openParens_append, openParens_append, ih, hzero (inert_freshMark d),
      hzero (inert_issuedMark d n)]

theorem signatureStep_respelled (depth : Int) (h : Respelled d x x') :
    Dialect.signatureStep depth x' = Dialect.signatureStep depth x := by
  have hcode : Respelled d (Text.trimEnd (Dialect.codePart x)) (Text.trimEnd (Dialect.codePart x')) :=
    respelled_trimEnd (respelled_codePart h)
  unfold Dialect.signatureStep
  simp only [openParens_respelled hcode, getLast?_respelled hcode]

end TestCatalog.Proofs
