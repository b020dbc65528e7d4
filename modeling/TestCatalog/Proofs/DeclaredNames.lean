import TestCatalog.Proofs.InjectedLines

/-!
# Declared names

A line declares its name behind the first lead. What stands up to there decides only where the name
begins and whether it begins within quotes: the name itself is read off what follows.
-/

namespace TestCatalog.Proofs

/-! ## Cuts -/

section Cuts

variable {needle t before after : Text}

lemma cut?_cons {c : Char} (h : ¬ needle <+: c :: t) : Text.cut? needle (c :: t) =
    (Text.cut? needle t).map fun (before, after) => (c :: before, after) := by
  rw [Text.cut?, stripStart?_eq_none h]

lemma after?_eq_map_cut? (needle t : Text) :
    Text.after? needle t = (Text.cut? needle t).map Prod.snd := by
  induction t with
  | nil => cases needle <;> rfl
  | cons c t ih =>
    by_cases hstart : needle <+: c :: t
    · obtain ⟨rest, hrest⟩ := hstart
      rw [← hrest, after?_append, cut?_append_self]
      rfl
    · rw [Text.after?, stripStart?_eq_none hstart, ih, cut?_cons hstart, Option.map_map]
      rfl

lemma exists_cut?_of_after? (h : Text.after? needle t = some after) :
    ∃ before, Text.cut? needle t = some (before, after) := by
  rw [after?_eq_map_cut?] at h
  obtain ⟨⟨before, after'⟩, hcut, rfl⟩ := Option.map_eq_some_iff.mp h
  exact ⟨before, hcut⟩

/-- A needle that leads the text stands first there. -/
lemma cut?_append_eq_some_iff {rest : Text} :
    Text.cut? needle (needle ++ rest) = some (before, after) ↔
      needle ++ rest = before ++ (needle ++ after) ∧
        ∀ s u, needle ++ rest = s ++ (needle ++ u) → before.length ≤ s.length := by
  rw [cut?_append_self]
  constructor
  · intro h
    cases h
    exact ⟨rfl, fun s u _ => Nat.zero_le _⟩
  · rintro ⟨heq, hfirst⟩
    have hzero := List.eq_nil_of_length_eq_zero (Nat.le_zero.mp (hfirst [] rest rfl))
    subst hzero
    rw [List.nil_append] at heq
    rw [List.append_cancel_left heq]

/-- A text is cut where the needle stands first. -/
lemma cut?_eq_some_iff : Text.cut? needle t = some (before, after) ↔
    t = before ++ (needle ++ after) ∧
      ∀ s u, t = s ++ (needle ++ u) → before.length ≤ s.length := by
  induction t generalizing before with
  | nil =>
    by_cases hneedle : needle = []
    · subst hneedle
      exact cut?_append_eq_some_iff
    · have hnone : Text.cut? needle [] = none := if_neg hneedle
      rw [hnone]
      constructor
      · intro h
        cases h
      · rintro ⟨heq, -⟩
        obtain ⟨-, hrest⟩ := List.append_eq_nil_iff.mp heq.symm
        exact absurd (List.append_eq_nil_iff.mp hrest).1 hneedle
  | cons c t ih =>
    by_cases hstart : needle <+: c :: t
    · obtain ⟨rest, hrest⟩ := hstart
      rw [← hrest]
      exact cut?_append_eq_some_iff
    · rw [cut?_cons hstart, Option.map_eq_some_iff]
      constructor
      · rintro ⟨⟨before', after'⟩, hcut, heq⟩
        cases heq
        obtain ⟨rfl, hfirst⟩ := ih.mp hcut
        refine ⟨rfl, fun s u hs => ?_⟩
        cases s with
        | nil => exact absurd ⟨u, hs.symm⟩ hstart
        | cons c' s =>
          obtain ⟨-, hs⟩ := List.cons.inj hs
          exact Nat.succ_le_succ (hfirst s u hs)
      · rintro ⟨heq, hfirst⟩
        cases before with
        | nil => exact absurd ⟨after, heq.symm⟩ hstart
        | cons c' before =>
          obtain ⟨rfl, htail⟩ := List.cons.inj heq
          refine ⟨(before, after), ih.mpr ⟨htail, fun s u hs => ?_⟩, rfl⟩
          have hle := hfirst (c :: s) u (by rw [hs]; rfl)
          exact Nat.le_of_succ_le_succ hle

/-- What follows the first place of the needle does not matter to a cut. -/
lemma cut?_append_iff (u : Text) : Text.cut? needle (t ++ u) = some (before, after ++ u) ↔
    Text.cut? needle t = some (before, after) := by
  rw [cut?_eq_some_iff, cut?_eq_some_iff]
  have heq : t ++ u = before ++ (needle ++ (after ++ u)) ↔ t = before ++ (needle ++ after) := by
    rw [← List.append_assoc needle, ← List.append_assoc before, List.append_left_inj]
  rw [heq]
  refine and_congr_right fun ht => ?_
  constructor
  · intro hfirst s v hs
    exact hfirst s (v ++ u) (by simp [hs])
  · intro hfirst s v hs
    by_contra hlt
    have hlen : (s ++ needle).length ≤ t.length := by
      rw [ht, List.length_append, List.length_append, List.length_append]
      omega
    have hleads : s ++ needle <+: t ++ u := ⟨v, by rw [hs, List.append_assoc]⟩
    obtain ⟨w, hw⟩ := List.prefix_of_prefix_length_le hleads (List.prefix_append t u) hlen
    exact hlt (hfirst s w (by rw [← hw, List.append_assoc]))

lemma cut?_eq_none_iff : Text.cut? needle t = none ↔ ¬ needle <:+: t := by
  induction t with
  | nil =>
    rw [List.infix_nil]
    exact ite_eq_right_iff.trans (by simp)
  | cons c t ih =>
    rw [List.infix_cons_iff, not_or]
    by_cases hstart : needle <+: c :: t
    · obtain ⟨rest, hrest⟩ := hstart
      rw [← hrest, cut?_append_self]
      simp
    · rw [cut?_cons hstart, Option.map_eq_none_iff, ih]
      simp [hstart]

end Cuts

/-! ## Code -/

/-- The quote that is open behind a character. -/
def quoteBelow : (quote : Option Char) → Char → Option Char
  | none, c => if c = '\'' ∨ c = '"' then some c else none
  | some q, c => if c = q then none else some q

/-- No comment begins in the text, and behind it `last` is the quote that is open. -/
inductive ReadsCode : (quote : Option Char) → Text → (last : Option Char) → Prop where
  | nil (quote : Option Char) : ReadsCode quote [] quote
  | cons {quote last : Option Char} {c : Char} {t : Text} (hc : quote = none → c ≠ '#')
      (h : ReadsCode (quoteBelow quote c) t last) : ReadsCode quote (c :: t) last

section Code

variable {quote last : Option Char} {c : Char} {s t : Text}

lemma codeFrom_cons (hc : quote = none → c ≠ '#') (t : Text) :
    Dialect.codeFrom quote (c :: t) = c :: Dialect.codeFrom (quoteBelow quote c) t := by
  cases quote with
  | none => exact if_neg (hc rfl)
  | some q => rfl

lemma ReadsCode.codeFrom_append (h : ReadsCode quote s last) (t : Text) :
    Dialect.codeFrom quote (s ++ t) = s ++ Dialect.codeFrom last t := by
  induction h with
  | nil quote => rfl
  | cons hc h ih => rw [List.cons_append, codeFrom_cons hc, ih, List.cons_append]

lemma exists_reads (h : s <+: Dialect.codeFrom quote t) :
    ∃ last rest, ReadsCode quote s last ∧ t = s ++ rest := by
  induction s generalizing quote t with
  | nil => exact ⟨quote, t, .nil quote, rfl⟩
  | cons c s ih =>
    cases t with
    | nil =>
      have hnil : Dialect.codeFrom quote [] = [] := by cases quote <;> rfl
      rw [hnil] at h
      exact absurd (List.prefix_nil.mp h) (List.cons_ne_nil c s)
    | cons c' t =>
      have hcode : quote = none → c' ≠ '#' := by
        rintro rfl rfl
        exact absurd (List.prefix_nil.mp h) (List.cons_ne_nil c s)
      rw [codeFrom_cons hcode] at h
      obtain ⟨rfl, hs⟩ := List.cons_prefix_cons.mp h
      obtain ⟨last, rest, hreads, rfl⟩ := ih hs
      exact ⟨last, rest, .cons hcode hreads, rfl⟩

lemma not_inert_quoteBelow (hquote : ∀ q ∈ quote, ¬ Inert q) (c : Char) :
    ∀ q ∈ quoteBelow quote c, ¬ Inert q := by
  intro q hq
  cases quote with
  | none =>
    dsimp only [quoteBelow] at hq
    split_ifs at hq with hopen
    · cases hq
      rcases hopen with rfl | rfl <;> decide
    · cases hq
  | some q' =>
    dsimp only [quoteBelow] at hq
    split_ifs at hq with hclose
    · cases hq
    · exact hquote q hq

lemma ReadsCode.not_inert (h : ReadsCode quote s last) (hquote : ∀ q ∈ quote, ¬ Inert q) :
    ∀ q ∈ last, ¬ Inert q := by
  induction h with
  | nil quote => exact hquote
  | cons hc h ih => exact ih (not_inert_quoteBelow hquote _)

end Code

/-! ## Leads -/

/-- A line that begins so declares the name that it goes on with, where `quote` is open. -/
structure Leads (d : Dialect) (before : Text) (quote : Option Char) : Prop where
  lead : ∃ head blanks, AllBlank blanks ∧ Text.cut? (headLead d) before = some (head, blanks)
  reads : d = .annotatedFunction → ReadsCode none before quote

/-- The part of a line that holds the name, behind the lead. -/
def spanFrom : Dialect → (quote : Option Char) → Text → Text
  | .annotatedFunction, quote, t => (Dialect.codeFrom quote t).takeWhile (· ≠ '(')
  | .keywordTable, _, t => t
  | .featureScenario, _, t => t

variable {d : Dialect} {quote : Option Char} {line before name : Text}

lemma trimmed?_append_left {blanks : Text} (h : AllBlank blanks) (t : Text) :
    Dialect.trimmed? (blanks ++ t) = Dialect.trimmed? t := by
  unfold Dialect.trimmed?
  rw [trim_append_left h]

lemma trimmed?_append_right {blanks : Text} (h : AllBlank blanks) (t : Text) :
    Dialect.trimmed? (t ++ blanks) = Dialect.trimmed? t := by
  unfold Dialect.trimmed?
  rw [trim_append_right h]

lemma after?_of_cut? {needle head blanks : Text} (h : Text.cut? needle before = some (head, blanks))
    (t : Text) : Text.after? needle (before ++ t) = some (blanks ++ t) := by
  rw [after?_eq_map_cut?, (cut?_append_iff t).mpr h]
  rfl

/-- What stands behind the lead is the name, as far as it goes. -/
theorem Leads.nameOnLine? (h : Leads d before quote) (t : Text) :
    d.nameOnLine? (before ++ t) = Dialect.trimmed? (spanFrom d quote t) := by
  obtain ⟨⟨head, blanks, hblanks, hcut⟩, hreads⟩ := h
  cases d with
  | annotatedFunction =>
    have hplain : ∀ c ∈ blanks, decide (c ≠ '(') = true := by
      intro c hc
      rw [decide_eq_true_eq]
      rintro rfl
      exact absurd (hblanks _ hc) (by decide)
    have hname (line : Text) : Dialect.annotatedFunction.nameOnLine? line =
        (Text.after? "def " (Dialect.codePart line)).bind fun rest =>
          Dialect.trimmed? (rest.takeWhile (· ≠ '(')) := rfl
    have hafter : Text.after? "def " (before ++ Dialect.codeFrom quote t) =
        some (blanks ++ Dialect.codeFrom quote t) := after?_of_cut? hcut _
    rw [hname, Dialect.codePart, (hreads rfl).codeFrom_append, hafter, Option.bind_some,
      List.takeWhile_append_of_pos hplain, trimmed?_append_left hblanks]
    rfl
  | keywordTable =>
    have hwhole : Text.cut? [] before = some ([], before) := cut?_append_self [] before
    have hself : Text.cut? [] before = some (head, blanks) := hcut
    rw [hwhole] at hself
    obtain ⟨-, rfl⟩ := Prod.mk.inj (Option.some.inj hself)
    exact trimmed?_append_left hblanks t
  | featureScenario =>
    have hname (line : Text) : Dialect.featureScenario.nameOnLine? line =
        (Text.after? "Scenario: " line).bind Dialect.trimmed? := rfl
    have hafter : Text.after? "Scenario: " (before ++ t) = some (blanks ++ t) :=
      after?_of_cut? hcut t
    rw [hname, hafter, Option.bind_some, trimmed?_append_left hblanks]
    rfl

lemma exists_of_trimmed? {t : Text} (h : Dialect.trimmed? t = some name) :
    ∃ blanks after, AllBlank blanks ∧ t = blanks ++ (name ++ after) := by
  obtain ⟨l, r, hl, -, ht⟩ := exists_trim t
  refine ⟨l, r, hl, ?_⟩
  rw [(trimmed?_eq_some h).1, ← List.append_assoc]
  exact ht

lemma lead_append {needle head : Text} {blanks t : Text}
    (h : Text.cut? needle line = some (head, blanks ++ t)) :
    line = head ++ (needle ++ blanks) ++ t ∧
      Text.cut? needle (head ++ (needle ++ blanks)) = some (head, blanks) := by
  obtain ⟨hline, -⟩ := cut?_eq_some_iff.mp h
  have heq : line = head ++ (needle ++ blanks) ++ t := by
    rw [hline]
    simp only [List.append_assoc]
  rw [heq, cut?_append_iff] at h
  exact ⟨heq, h⟩

/-- A line that declares a name leads up to it. -/
theorem exists_leads (h : d.nameOnLine? line = some name) :
    ∃ before after quote, Leads d before quote ∧ line = before ++ (name ++ after) := by
  cases d with
  | annotatedFunction =>
    obtain ⟨rest, hrest, hname⟩ := Option.bind_eq_some_iff.mp h
    obtain ⟨head, hcut⟩ := exists_cut?_of_after? hrest
    obtain ⟨blanks, after, hblanks, hspan⟩ := exists_of_trimmed? hname
    rw [← List.takeWhile_append_dropWhile (p := (· ≠ '(')) (l := rest), hspan, List.append_assoc,
      List.append_assoc] at hcut
    obtain ⟨hcode, hlead⟩ := lead_append hcut
    obtain ⟨quote, -, hreads, -⟩ := exists_reads ⟨_, hcode.symm⟩
    obtain ⟨comment, hcomment⟩ := prefix_codeFrom none line
    refine ⟨_, after ++ (rest.dropWhile (· ≠ '(') ++ comment), quote,
      ⟨⟨head, blanks, hblanks, hlead⟩, fun _ => hreads⟩, ?_⟩
    rw [← hcomment, ← Dialect.codePart, hcode]
    simp only [List.append_assoc]
  | keywordTable =>
    obtain ⟨blanks, after, hblanks, rfl⟩ := exists_of_trimmed? h
    refine ⟨blanks, after, none, ⟨⟨[], blanks, hblanks, cut?_append_self [] _⟩, ?_⟩, rfl⟩
    intro hd
    cases hd
  | featureScenario =>
    obtain ⟨rest, hrest, hname⟩ := Option.bind_eq_some_iff.mp h
    obtain ⟨head, hcut⟩ := exists_cut?_of_after? hrest
    obtain ⟨blanks, after, hblanks, rfl⟩ := exists_of_trimmed? hname
    obtain ⟨rfl, hlead⟩ := lead_append hcut
    refine ⟨_, after, none, ⟨⟨head, blanks, hblanks, hlead⟩, ?_⟩, rfl⟩
    intro hd
    cases hd

lemma bareEnds_of_trimmed? {t : Text} (h : Dialect.trimmed? t = some name) : BareEnds name := by
  rw [(trimmed?_eq_some h).1]
  exact bareEnds_trim t

lemma bareEnds_of_nameOnLine? (h : d.nameOnLine? line = some name) : BareEnds name ∧ name ≠ [] := by
  obtain ⟨before, after, quote, hleads, rfl⟩ := exists_leads h
  rw [hleads.nameOnLine?] at h
  exact ⟨bareEnds_of_trimmed? h, (trimmed?_eq_some h).2⟩

/-! ## Ends of lines -/

lemma codeFrom_append_blank (quote : Option Char) (t : Text) {r : Text} (hr : AllBlank r) :
    ∃ r', AllBlank r' ∧ Dialect.codeFrom quote (t ++ r) = Dialect.codeFrom quote t ++ r' := by
  induction t generalizing quote with
  | nil =>
    have hnil : Dialect.codeFrom quote [] = [] := by cases quote <;> rfl
    rw [hnil]
    exact ⟨_, fun c hc => hr c ((prefix_codeFrom quote r).subset hc), rfl⟩
  | cons c t ih =>
    by_cases hcode : quote = none → c ≠ '#'
    · obtain ⟨r', hr', happend⟩ := ih (quoteBelow quote c)
      refine ⟨r', hr', ?_⟩
      rw [List.cons_append, codeFrom_cons hcode, codeFrom_cons hcode, happend, List.cons_append]
    · push Not at hcode
      obtain ⟨rfl, rfl⟩ := hcode
      exact ⟨[], allBlank_nil, rfl⟩

lemma trimmed?_spanFrom_append (d : Dialect) (quote : Option Char) (t : Text) {r : Text}
    (hr : AllBlank r) :
    Dialect.trimmed? (spanFrom d quote (t ++ r)) = Dialect.trimmed? (spanFrom d quote t) := by
  cases d with
  | annotatedFunction =>
    obtain ⟨r', hr', happend⟩ := codeFrom_append_blank quote t hr
    rw [spanFrom, happend, List.takeWhile_append]
    split_ifs with hall
    · have hplain : (Dialect.codeFrom quote t).takeWhile (· ≠ '(') = Dialect.codeFrom quote t :=
        (List.takeWhile_prefix _).eq_of_length hall
      have hblank : AllBlank (r'.takeWhile (· ≠ '(')) :=
        fun c hc => hr' c ((List.takeWhile_prefix _).subset hc)
      rw [trimmed?_append_right hblank, spanFrom, hplain]
    · rfl
  | keywordTable => exact trimmed?_append_right hr t
  | featureScenario => exact trimmed?_append_right hr t

lemma prefix_trimEnd_append {s : Text} (hs : ∀ c ∈ s.getLast?, Text.isBlank c = false) (t : Text) :
    s <+: Text.trimEnd (s ++ t) := by
  have happend : Text.trimEnd (s ++ t) =
      if Text.trimEnd t = [] then Text.trimEnd s else s ++ Text.trimEnd t :=
    dropEndWhile_append _ _ _
  rw [happend, trimEnd_eq_self hs]
  split_ifs
  · exact List.prefix_rfl
  · exact List.prefix_append s _

/-- The characters that end a line do not matter to its name. -/
theorem declared?_eq (d : Dialect) (line : Text) : declared? d line = d.nameOnLine? line := by
  obtain ⟨r, hr, hline⟩ := exists_content line
  apply Option.ext
  intro name
  constructor
  · intro h
    obtain ⟨before, after, quote, hleads, hcontent⟩ := exists_leads h
    have hname : d.nameOnLine? (Injection.content line) = some name := h
    rw [hcontent, hleads.nameOnLine?] at hname
    rw [hline, hcontent, List.append_assoc, hleads.nameOnLine?,
      trimmed?_spanFrom_append d quote _ hr]
    exact hname
  · intro h
    obtain ⟨before, after, quote, hleads, hwhole⟩ := exists_leads h
    obtain ⟨hbare, hne⟩ := bareEnds_of_nameOnLine? h
    -- the name ends above the characters that end the line
    have hlast : ∀ c ∈ (before ++ name).getLast?, Text.isBlank c = false := by
      intro c hc
      rw [List.getLast?_append_of_ne_nil _ hne] at hc
      exact hbare.2 c hc
    have hleads' : before ++ name <+: Injection.content line := by
      refine (prefix_trimEnd_append hlast after).trans ?_
      have htrim : Text.trimEnd line = Text.trimEnd (Injection.content line) := by
        conv_lhs => rw [hline, trimEnd_append_right hr]
      rw [List.append_assoc, ← hwhole, htrim]
      exact prefix_trimEnd _
    obtain ⟨after', hcontent⟩ := hleads'
    rw [List.append_assoc] at hcontent
    rw [hline, ← hcontent, List.append_assoc, hleads.nameOnLine?,
      trimmed?_spanFrom_append d quote _ hr] at h
    have hdeclared : declared? d line = d.nameOnLine? (Injection.content line) := rfl
    rw [hdeclared, ← hcontent, hleads.nameOnLine?]
    exact h

end TestCatalog.Proofs
