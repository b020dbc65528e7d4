import TestCatalog.Proofs.ReissuedTexts

/-!
# Repeated injection

Injection leaves no line that declares a pending name, if the pending names are those of cases
without identifiers and the new ones are their issued names. A second injection then changes
nothing.
-/

namespace TestCatalog.Proofs

/-- No line declares a name that is pending under the folder path. -/
def Settled (d : Dialect) (folder source : Text) (m : RenameMap) : Prop :=
  ∀ line ∈ Text.linesInclusive source, ∀ name, declared? d line = some name →
    m.get? folder name = none

/-- The name of a case without identifier, and the name that it takes with an identifier. -/
def IssuedRename (d : Dialect) (old new : Text) : Prop :=
  freshToken d <+: old ∧ ∃ n, new = d.assignedName old (issuedId n)

/-- A function name that holds a lead and a comment sign, so that it may stand on a line across the
lead, or across the place where the code of the line ends. -/
def Tangled (d : Dialect) (old : Text) : Prop :=
  d = .annotatedFunction ∧ headLead d <:+: old ∧ '#' ∈ old

/-- What becomes of a line: the name that it declares afterwards is the one that it declared, or an
issued one. -/
structure Rewritten (d : Dialect) (line row : Text) : Prop where
  reissued : Reissued d line row
  declared : ∀ name, declared? d row = some name →
    declared? d line = some name ∨ ∃ n, issuedToken d n <+: name

variable {d : Dialect} {folder source : Text} {m : RenameMap} {n : ℕ}
  {quote : Option Char} {line row before after name rest : Text}

/-! ## Ends of names -/

lemma Leads.spanFrom_append (hleads : Leads d before quote) {s : Text} (hs : ∀ c ∈ s, Inert c)
    (t : Text) : spanFrom d quote (s ++ t) = s ++ spanFrom d quote t := by
  cases d with
  | annotatedFunction =>
    have hplain : ∀ c ∈ s, decide (c ≠ '(') = true := by
      intro c hc
      rw [decide_eq_true_eq]
      rintro rfl
      exact absurd (hs _ hc) (by decide)
    have hquote := (hleads.reads rfl).not_inert (fun q hq => by cases hq)
    rw [spanFrom, codeFrom_append hs quote hquote, List.takeWhile_append_of_pos hplain]
    rfl
  | keywordTable => rfl
  | featureScenario => rfl

lemma takeWhile_codeFrom_eq_nil_iff {t : Text} :
    (Dialect.codeFrom quote t).takeWhile (· ≠ '(') = [] ↔
      ∀ c ∈ t.head?, c = '(' ∨ quote = none ∧ c = '#' := by
  cases t with
  | nil =>
    have hnil : Dialect.codeFrom quote [] = [] := by cases quote <;> rfl
    simp [hnil]
  | cons c t =>
    by_cases hcode : quote = none → c ≠ '#'
    · rw [codeFrom_cons hcode, List.takeWhile_cons]
      simp only [List.head?_cons, Option.mem_def, Option.some_inj, forall_eq']
      split_ifs with hparen
      · simp only [decide_eq_true_eq] at hparen
        simpa [hparen] using hcode
      · simp only [decide_eq_true_eq, not_not] at hparen
        simp [hparen]
    · push Not at hcode
      obtain ⟨rfl, rfl⟩ := hcode
      simp [Dialect.codeFrom]

lemma exists_code_ending {old : Text} (hold : BareEnds old) (hne : old ≠ [])
    (h : Dialect.trimmed? ((Dialect.codeFrom quote (old ++ after)).takeWhile (· ≠ '(')) =
      some old) :
    ∃ blanks rest last, after = blanks ++ rest ∧ AllBlank blanks ∧
      ReadsCode quote (old ++ blanks) last ∧ (∀ c ∈ old ++ blanks, decide (c ≠ '(') = true) ∧
      (Dialect.codeFrom last rest).takeWhile (· ≠ '(') = [] := by
  let span := (Dialect.codeFrom quote (old ++ after)).takeWhile (· ≠ '(')
  have hcode : span <+: Dialect.codeFrom quote (old ++ after) := List.takeWhile_prefix _
  obtain ⟨l, blanks, hl, hblanks, hspan⟩ := exists_trim span
  have htrim : old = Text.trim span := (trimmed?_eq_some h).1
  rw [← htrim] at hspan
  -- the name begins the line, and not with a blank
  have hnil : l = [] := by
    obtain ⟨c, o, rfl⟩ := List.exists_cons_of_ne_nil hne
    cases l with
    | nil => rfl
    | cons c' l =>
      have hline := hcode.trans (prefix_codeFrom quote _)
      rw [hspan] at hline
      obtain ⟨rfl, -⟩ := List.cons_prefix_cons.mp hline
      have hbare := hold.1 c' rfl
      rw [hl c' List.mem_cons_self] at hbare
      cases hbare
  subst hnil
  rw [List.nil_append] at hspan
  rw [hspan] at hcode
  obtain ⟨last, rest, hreads, hline⟩ := exists_reads hcode
  rw [List.append_assoc] at hline
  have hafter := List.append_cancel_left hline
  have hplain : ∀ c ∈ old ++ blanks, decide (c ≠ '(') = true := by
    intro c hc
    rw [← hspan] at hc
    exact List.mem_takeWhile_imp (p := (· ≠ '(')) hc
  refine ⟨blanks, rest, last, hafter, hblanks, hreads, hplain, ?_⟩
  have hself : (Dialect.codeFrom quote (old ++ after)).takeWhile (· ≠ '(') = old ++ blanks := hspan
  rw [hafter, ← List.append_assoc, hreads.codeFrom_append, List.takeWhile_append_of_pos hplain]
    at hself
  exact List.append_right_eq_self.mp hself

/-- Behind a name are blanks, and then the line ends or goes on with what ends the name of a
function: a parenthesis or a comment. The name ends there whatever stands below. -/
lemma exists_ending {old : Text} (hold : BareEnds old) (hne : old ≠ [])
    (h : Dialect.trimmed? (spanFrom d quote (old ++ after)) = some old) :
    ∃ blanks rest, after = blanks ++ rest ∧ AllBlank blanks ∧
      (∀ c ∈ rest.head?, d = .annotatedFunction ∧ (c ∉ old ∨ c = '#')) ∧
      ∀ rest', rest'.head? = rest.head? →
        spanFrom d quote (old ++ (blanks ++ rest')) = old ++ blanks := by
  have hwhole (h : Dialect.trimmed? (old ++ after) = some old) : AllBlank after := by
    rw [trimmed?_append hold hne] at h
    have hend : Text.trimEnd after = [] := by simpa using h
    exact trimEnd_eq_nil_iff.mp hend
  have hnil {rest : Text} (h : rest.head? = ([] : Text).head?) : rest = [] :=
    List.head?_eq_none_iff.mp h
  cases d with
  | annotatedFunction =>
    obtain ⟨blanks, rest, last, hafter, hblanks, hreads, hplain, hends⟩ :=
      exists_code_ending hold hne h
    rw [takeWhile_codeFrom_eq_nil_iff] at hends
    refine ⟨blanks, rest, hafter, hblanks, fun c hc => ⟨rfl, ?_⟩, fun rest' hrest' => ?_⟩
    · rcases hends c hc with rfl | ⟨-, rfl⟩
      · left
        intro hmem
        exact absurd (hplain _ (List.mem_append_left blanks hmem)) (by decide)
      · exact .inr rfl
    · rw [← hrest', ← takeWhile_codeFrom_eq_nil_iff] at hends
      rw [spanFrom, ← List.append_assoc, hreads.codeFrom_append,
        List.takeWhile_append_of_pos hplain, hends, List.append_nil]
  | keywordTable =>
    refine ⟨after, [], (List.append_nil _).symm, hwhole h, by simp, fun rest' hrest' => ?_⟩
    rw [hnil hrest', List.append_nil]
    rfl
  | featureScenario =>
    refine ⟨after, [], (List.append_nil _).symm, hwhole h, by simp, fun rest' hrest' => ?_⟩
    rw [hnil hrest', List.append_nil]
    rfl

/-! ## Names on replaced lines -/

lemma Leads.isBlank_getLast? (h : Leads d before quote) :
    ∀ c ∈ before.getLast?, Text.isBlank c = true := by
  obtain ⟨⟨head, blanks, hblanks, hcut⟩, -⟩ := h
  have hlast (lead : Text) : lead.getLast? = some ' ' → ∀ c ∈ (head ++ (lead ++ blanks)).getLast?,
      Text.isBlank c = true := by
    intro hlead c hc
    by_cases hnil : blanks = []
    · subst hnil
      rw [List.append_nil, List.getLast?_append, hlead] at hc
      cases hc
      rfl
    · rw [← List.append_assoc, List.getLast?_append_of_ne_nil _ hnil] at hc
      exact hblanks c (List.mem_of_getLast? hc)
  obtain ⟨rfl, -⟩ := cut?_eq_some_iff.mp hcut
  cases d with
  | annotatedFunction => exact hlast "def " rfl
  | keywordTable =>
    have hwhole : Text.cut? [] (head ++ ([] ++ blanks)) = some ([], head ++ ([] ++ blanks)) :=
      cut?_append_self [] _
    have hself : Text.cut? [] (head ++ ([] ++ blanks)) = some (head, blanks) := hcut
    rw [hwhole] at hself
    obtain ⟨rfl, -⟩ := Prod.mk.inj (Option.some.inj hself)
    intro c hc
    exact hblanks c (List.mem_of_getLast? hc)
  | featureScenario => exact hlast "Scenario: " rfl

/-- If a name without identifier stands across the border at which the name of a line begins, its
token and a whole lead are above the border. -/
lemma exists_across {s v w : Text} (hleads : Leads d (s ++ v) quote)
    (hold : freshToken d ++ rest = v ++ w) (hv : v ≠ []) :
    ∃ v', v = freshToken d ++ v' ∧ rest = v' ++ w ∧ headLead d <:+: freshToken d ++ rest := by
  have htoken : freshToken d <+: v := by
    rcases List.prefix_or_prefix_of_prefix (hold ▸ List.prefix_append _ rest)
      (List.prefix_append v w) with h | h
    · exact h
    · -- the token has no blank, and the border has one above it
      obtain ⟨c, hc⟩ := List.getLast?_isSome.mpr hv |> Option.isSome_iff_exists.mp
      have hblank := hleads.isBlank_getLast? c (by
        rw [List.getLast?_append_of_ne_nil _ hv]
        exact hc)
      have hinert := inert_freshToken d c (h.subset (List.mem_of_getLast? hc))
      rw [hinert.1] at hblank
      cases hblank
  obtain ⟨⟨head, blanks, hblanks, hcut⟩, -⟩ := hleads
  obtain ⟨hbefore, -⟩ := cut?_eq_some_iff.mp hcut
  have hlead : headLead d <:+: v := by
    rcases List.suffix_or_suffix_of_suffix (hbefore ▸ List.suffix_append s v)
      (List.suffix_append head (headLead d ++ blanks)) with h | h
    · -- the token begins neither in the lead nor in the blanks
      obtain ⟨c, token, hc⟩ := List.exists_cons_of_ne_nil (freshToken_ne_nil d)
      have hmem : c ∈ freshToken d := by rw [hc]; exact List.mem_cons_self
      rcases List.mem_append.mp (h.subset (htoken.subset hmem)) with hmem' | hmem'
      · exact absurd (by rw [hc]; rfl) (head?_freshToken_append rest c hmem')
      · have hblank := hblanks c hmem'
        rw [(inert_freshToken d c hmem).1] at hblank
        cases hblank
    · exact (List.prefix_append _ blanks).isInfix.trans h.isInfix
  obtain ⟨v', rfl⟩ := htoken
  rw [List.append_assoc] at hold
  refine ⟨v', rfl, List.append_cancel_left hold, ?_⟩
  rw [List.append_cancel_left hold, ← List.append_assoc]
  exact hlead.trans (List.prefix_append _ w).isInfix

/-- A name whose line ends it stands nowhere across that place, unless it holds a comment sign. -/
lemma not_across {old blanks rest v w z : Text} (hold : BareEnds old) (hblanks : AllBlank blanks)
    (hends : ∀ c ∈ rest.head?, d = .annotatedFunction ∧ (c ∉ old ∨ c = '#'))
    (hplain : ¬ (d = .annotatedFunction ∧ '#' ∈ old)) (hrest : blanks ++ rest = w ++ z)
    (hw : w ≠ []) : old ≠ v ++ w := by
  rintro rfl
  have hleads : w <+: blanks ++ rest := hrest ▸ List.prefix_append w z
  have hbare : ¬ w <+: blanks := by
    intro h
    obtain ⟨c, hc⟩ := Option.isSome_iff_exists.mp (List.getLast?_isSome.mpr hw)
    have hlast := hold.2 c (by rw [List.getLast?_append_of_ne_nil v hw]; exact hc)
    rw [hblanks c (h.subset (List.mem_of_getLast? hc))] at hlast
    cases hlast
  rcases List.prefix_or_prefix_of_prefix hleads (List.prefix_append blanks rest) with h | h
  · exact hbare h
  · obtain ⟨w', rfl⟩ := h
    cases w' with
    | nil =>
      rw [List.append_nil] at hbare
      exact hbare List.prefix_rfl
    | cons c w' =>
      have hhead : rest.head? = some c := by
        rw [List.append_assoc] at hrest
        rw [List.append_cancel_left hrest]
        rfl
      have hmem : c ∈ v ++ (blanks ++ c :: w') := by simp
      obtain ⟨hd, hnot | rfl⟩ := hends c hhead
      · exact hnot hmem
      · exact hplain ⟨hd, hmem⟩

lemma head?_replaceAll {old new : Text} (hne : old ≠ []) {t : Text}
    (ht : ∀ c ∈ t.head?, old.head? ≠ some c) : (Text.replaceAll old new t).head? = t.head? := by
  cases t with
  | nil => rfl
  | cons c t =>
    have hsplit : Text.replaceAll old new ([c] ++ t) = [c] ++ Text.replaceAll old new t :=
      replaceAll_append_left hne (by simpa using ht c rfl) t
    rw [List.singleton_append] at hsplit
    rw [hsplit]
    rfl

/-- Where the name goes on below the border, it does so after the replacement. -/
lemma name_of_across {old w z v : Text} (new : Text) (hold : BareEnds old) (hne : old ≠ [])
    (hfirst : ∀ c ∈ old.head?, Inert c) (hplain : ¬ (d = .annotatedFunction ∧ '#' ∈ old))
    (h : Dialect.trimmed? (spanFrom d quote (old ++ after)) = some old)
    (hv : v ≠ []) (hw : w ≠ []) (hvw : old = v ++ w) (hz : old ++ after = w ++ z) :
    Dialect.trimmed? (spanFrom d quote (w ++ Text.replaceAll old new z)) = some old := by
  have hlt : w.length < old.length := by
    have hpos := List.length_pos_iff.mpr hv
    rw [hvw, List.length_append]
    omega
  -- `w` is the start of the name, and `w'` its rest
  obtain ⟨w', hw'⟩ : w <+: old := List.prefix_of_prefix_length_le (hz ▸ List.prefix_append w z)
    (List.prefix_append old after) hlt.le
  obtain rfl : z = w' ++ after := by
    rw [← hw', List.append_assoc] at hz
    exact (List.append_cancel_left hz).symm
  obtain ⟨blanks, rest, rfl, hblanks, hends, hspan⟩ := exists_ending hold hne h
  rcases replaceAll_append_cases hne new w' (blanks ++ rest) with
    hsplit | ⟨_, v₂, w₂, z₂, -, hrest, hold₂, -, hw₂, -⟩
  · have hkeep : Text.replaceAll old new w' = w' := by
      apply replaceAll_eq_self
      intro hpart
      have hle := hpart.length_le
      have hpos := List.length_pos_iff.mpr hw
      rw [← hw', List.length_append] at hle
      omega
    have hblank : ∀ c ∈ blanks, old.head? ≠ some c := by
      intro c hc hhead
      have hinert := (hfirst c hhead).1
      rw [hblanks c hc] at hinert
      cases hinert
    have hhead : (Text.replaceAll old new rest).head? = rest.head? := by
      apply head?_replaceAll hne
      intro c hc hhead
      obtain ⟨-, hnot | rfl⟩ := hends c hc
      · exact hnot (List.mem_of_mem_head? hhead)
      · exact absurd (hfirst _ hhead) (by decide)
    have hself := trimmed?_append hold hne []
    rw [hsplit, hkeep, replaceAll_append_left hne hblank, ← List.append_assoc, hw', hspan _ hhead,
      trimmed?_append_right hblanks, ← List.append_nil old, hself]
    simp [Text.trimEnd]
  · exact absurd hold₂ (not_across hold hblanks hends hplain hrest hw₂)

/-- A renamed line declares an issued name, or the name that it declared before. -/
theorem name_of_replaced (hplain : ¬ Tangled d (freshToken d ++ rest))
    (hname : d.nameOnLine? line = some (freshToken d ++ rest))
    (h : d.nameOnLine? (Text.replaceAll (freshToken d ++ rest) (issuedToken d n ++ rest) line) =
      some name) :
    name = freshToken d ++ rest ∨ issuedToken d n <+: name := by
  obtain ⟨hbare, hne⟩ := bareEnds_of_nameOnLine? hname
  obtain ⟨before, after, quote, hleads, rfl⟩ := exists_leads hname
  rw [hleads.nameOnLine?] at hname
  rcases replaceAll_append_cases hne (issuedToken d n ++ rest) before
      (freshToken d ++ rest ++ after) with
    hsplit | ⟨s, v, w, z, rfl, hz, hvw, hv, hw, hsplit⟩
  · right
    have hleads' := hleads.reissued (reissued_replaceAll d n rest before)
    have htoken : BareEnds (issuedToken d n) :=
      ⟨fun c hc => (inert_issuedToken d n c (List.mem_of_mem_head? hc)).1,
        fun c hc => (inert_issuedToken d n c (List.mem_of_getLast? hc)).1⟩
    rw [hsplit, replaceAll_append_old hne, hleads'.nameOnLine?, List.append_assoc,
      hleads'.spanFrom_append (inert_issuedToken d n),
      trimmed?_append htoken (issuedToken_ne_nil d n)] at h
    cases h
    exact List.prefix_append _ _
  · left
    obtain ⟨v', rfl, rfl, hlead⟩ := exists_across hleads hvw hv
    have hleads' := hleads.reissued
      ((reissued_replaceAll d n (v' ++ w) s).append (.token n (.refl d v')))
    have hfirst : ∀ c ∈ (freshToken d ++ (v' ++ w)).head?, Inert c := by
      intro c hc
      rw [List.head?_append_of_ne_nil _ (freshToken_ne_nil d)] at hc
      exact inert_freshToken d c (List.mem_of_mem_head? hc)
    have hcomment : ¬ (d = .annotatedFunction ∧ '#' ∈ freshToken d ++ (v' ++ w)) :=
      fun ⟨hd, hmem⟩ => hplain ⟨hd, hlead, hmem⟩
    have hsame := name_of_across (issuedToken d n ++ (v' ++ w)) hbare hne hfirst hcomment hname
      hv hw hvw hz
    have hrow : Text.replaceAll (freshToken d ++ (v' ++ w)) (issuedToken d n ++ (v' ++ w)) s ++
        (issuedToken d n ++ (v' ++ w) ++
          Text.replaceAll (freshToken d ++ (v' ++ w)) (issuedToken d n ++ (v' ++ w)) z) =
        Text.replaceAll (freshToken d ++ (v' ++ w)) (issuedToken d n ++ (v' ++ w)) s ++
          (issuedToken d n ++ v') ++ (w ++
          Text.replaceAll (freshToken d ++ (v' ++ w)) (issuedToken d n ++ (v' ++ w)) z) := by
      simp only [List.append_assoc]
    rw [hsplit, hrow, hleads'.nameOnLine?, hsame] at h
    exact (Option.some.inj h).symm

/-! ## Rewritten lines -/

/-- Every rename that is pending under the folder path gives an issued name to a name that does not
tangle. -/
def PlaceholdersOnly (d : Dialect) (folder : Text) (m : RenameMap) : Prop :=
  ∀ old new, m.get? folder old = some new → IssuedRename d old new ∧ ¬ Tangled d old

lemma rewritten_changedLine (hm : PlaceholdersOnly d folder m) (line : Text) :
    Rewritten d line (changedLine line (Injection.pendingOnLine? d folder line m)) := by
  cases hline : Injection.pendingOnLine? d folder line m with
  | none => exact ⟨.refl d line, fun name hname => .inl hname⟩
  | some renamed =>
    obtain ⟨old, new⟩ := renamed
    obtain ⟨hdeclared, hget⟩ := pendingOnLine?_iff.mp hline
    obtain ⟨⟨⟨rest, rfl⟩, n, rfl⟩, hplain⟩ := hm old new hget
    rw [assignedName_freshToken]
    refine ⟨reissued_replaceAll d n rest line, fun name hname => ?_⟩
    have hline := hdeclared
    rw [declared?_eq] at hname hdeclared
    rcases name_of_replaced hplain hdeclared hname with rfl | hissued
    · exact .inl hline
    · exact .inr ⟨n, hissued⟩

lemma PlaceholdersOnly.leftBelow (hm : PlaceholdersOnly d folder m) (line : Text) :
    PlaceholdersOnly d folder (leftBelow d folder m line) := by
  intro old new hget
  rw [get?_leftBelow] at hget
  split_ifs at hget
  exact hm old new hget

lemma forall₂_rewritten (hm : PlaceholdersOnly d folder m) (ls : List Text) :
    List.Forall₂ (Rewritten d) ls (List.zipWith changedLine ls (lineChanges d folder ls m)) := by
  induction ls generalizing m with
  | nil => exact .nil
  | cons line ls ih => exact .cons (rewritten_changedLine hm line) (ih (hm.leftBelow line))

/-! ## Lines of rewritten texts -/

lemma exists_of_reissued_append {c : Char} (hc : ¬ Inert c) {x y z : Text}
    (h : Reissued d (x ++ c :: y) z) :
    ∃ x' y', z = x' ++ c :: y' ∧ Reissued d x x' ∧ Reissued d y y' := by
  generalize htext : x ++ c :: y = text at h
  induction h generalizing x with
  | nil => simp at htext
  | @char c' t t' h ih =>
    cases x with
    | nil =>
      obtain ⟨rfl, rfl⟩ := List.cons.inj htext
      exact ⟨[], t', rfl, .nil, h⟩
    | cons c'' x =>
      obtain ⟨rfl, htail⟩ := List.cons.inj htext
      obtain ⟨x', y', rfl, hx, hy⟩ := ih htail
      exact ⟨c'' :: x', y', rfl, .char c'' hx, hy⟩
  | @token n t t' h ih =>
    have hsplit : ∃ x₂, x = freshToken d ++ x₂ ∧ x₂ ++ c :: y = t := by
      rcases List.append_eq_append_iff.mp htext with ⟨s, htoken, hs⟩ | ⟨s, hx, ht⟩
      · cases s with
        | nil => exact ⟨[], by simp [htoken], hs⟩
        | cons c' s =>
          obtain ⟨rfl, -⟩ := List.cons.inj hs
          exact absurd (inert_freshToken d c (by rw [htoken]; simp)) hc
      · exact ⟨s, hx, ht.symm⟩
    obtain ⟨x₂, rfl, htail⟩ := hsplit
    obtain ⟨x', y', rfl, hx, hy⟩ := ih htail
    exact ⟨issuedToken d n ++ x', y', (List.append_assoc ..).symm, .token n hx, hy⟩

/-- Reissued lines end where the lines do. -/
lemma exists_withFeeds {ps rows : List Text} (hps : ps ≠ []) (hfeed : ∀ piece ∈ ps, '\n' ∉ piece)
    (h : List.Forall₂ (Reissued d) (withFeeds ps) rows) :
    ∃ ps', ps' ≠ [] ∧ rows = withFeeds ps' ∧ ∀ piece ∈ ps', '\n' ∉ piece := by
  have hinert : ¬ Inert '\n' := by decide
  induction ps generalizing rows with
  | nil => exact absurd rfl hps
  | cons piece ps ih =>
    have hpiece := hfeed piece List.mem_cons_self
    cases ps with
    | nil =>
      rw [withFeeds] at h
      by_cases hnil : piece = []
      · rw [if_pos hnil] at h
        cases h
        exact ⟨[[]], List.cons_ne_nil _ _, rfl, by simp⟩
      · rw [if_neg hnil] at h
        cases h with
        | @cons _ row _ _ hrow hrest =>
          cases hrest
          refine ⟨[row], List.cons_ne_nil _ _, ?_, by simpa using hrow.notMem hinert hpiece⟩
          rw [withFeeds, if_neg (hrow.ne_nil hnil)]
    | cons next rest =>
      rw [withFeeds] at h
      cases h with
      | cons hrow hrest =>
        obtain ⟨ps', hne, rfl, hfeed'⟩ :=
          ih (List.cons_ne_nil next rest) (fun p hp => hfeed p (List.mem_cons_of_mem piece hp))
            hrest
        obtain ⟨piece', ending, rfl, hpiece', hending⟩ := exists_of_reissued_append hinert hrow
        rw [hending.eq_of_blank allBlank_nil]
        refine ⟨piece' :: ps', List.cons_ne_nil _ _, ?_, ?_⟩
        · obtain ⟨next', rest', rfl⟩ := List.exists_cons_of_ne_nil hne
          rfl
        · intro p hp
          rcases List.mem_cons.mp hp with rfl | hp
          · exact hpiece'.notMem hinert hpiece
          · exact hfeed' p hp

lemma linesInclusive_flatten {rows : List Text}
    (h : List.Forall₂ (Reissued d) (Text.linesInclusive source) rows) :
    Text.linesInclusive rows.flatten = rows := by
  rw [linesInclusive_eq] at h
  obtain ⟨ps', hne, rfl, hfeed⟩ := exists_withFeeds (pieces_ne_nil source)
    (fun piece hpiece => notMem_of_mem_splitOn hpiece) h
  rw [flatten_withFeeds hne, linesInclusive_eq, pieces_join hne hfeed]

/-! ## Settled texts -/

lemma not_fresh_of_issued (hissued : issuedToken d n <+: name) : ¬ freshToken d <+: name := by
  rintro ⟨s, hfresh⟩
  obtain ⟨t, hissued⟩ := hissued
  have heq : freshToken d ++ s = issuedToken d n ++ t := hfresh.trans hissued.symm
  cases d with
  | annotatedFunction =>
    have hchar : some 'N' = some 'g' := congrArg (fun name : Text => name[5]?) heq
    exact absurd hchar (by decide)
  | keywordTable =>
    have hchar : some '<' = some 'T' := congrArg List.head? heq
    exact absurd hchar (by decide)
  | featureScenario =>
    have hchar : some 'N' = some 'g' := congrArg (fun name : Text => name[5]?) heq
    exact absurd hchar (by decide)

/-- A text is settled after an injection. -/
theorem settled_inject {filePath : Text} (h : m.folderOf? filePath = some folder)
    (hm : PlaceholdersOnly d folder m) (source : Text) :
    Settled d folder (d.inject filePath source m).value.1 (d.inject filePath source m).value.2 := by
  have hrewritten := forall₂_rewritten hm (Text.linesInclusive source)
  have hlines := linesInclusive_flatten (hrewritten.imp fun _ _ hrow => hrow.reissued)
  rw [inject_lines source h]
  intro row hrow name hname
  rw [hlines] at hrow
  obtain ⟨line, hline, hlinerow⟩ : ∃ line ∈ Text.linesInclusive source, Rewritten d line row := by
    obtain ⟨k, hk, rfl⟩ := List.mem_iff_getElem.mp hrow
    have hk' := hk
    rw [← hrewritten.length_eq] at hk'
    exact ⟨_, List.getElem_mem hk', hrewritten.get hk' hk⟩
  rw [get?_foldl_leftBelow]
  split_ifs with hdeclared
  · rfl
  · apply Option.eq_none_iff_forall_ne_some.mpr
    intro new hget
    rcases hlinerow.declared name hname with hsame | ⟨n, hissued⟩
    · exact hdeclared ⟨line, hline, hsame⟩
    · exact not_fresh_of_issued hissued (hm name new hget).1.1

lemma substituted_eq_nil {ls : List Text}
    (h : ∀ line ∈ ls, ∀ name, declared? d line = some name → m.get? folder name = none) :
    substituted d folder ls m = [] := by
  induction ls with
  | nil => rfl
  | cons line ls ih =>
    have hline : Injection.pendingOnLine? d folder line m = none := by
      apply Option.eq_none_iff_forall_ne_some.mpr
      rintro ⟨old, new⟩ hpending
      obtain ⟨hdeclared, hget⟩ := pendingOnLine?_iff.mp hpending
      rw [h line List.mem_cons_self old hdeclared] at hget
      cases hget
    rw [substituted, hline]
    exact ih fun line' hline' => h line' (List.mem_cons_of_mem line hline')

/-- Injection keeps a settled text. -/
theorem inject_of_settled {filePath : Text}
    (h : ∀ folder, m.folderOf? filePath = some folder → Settled d folder source m) :
    (d.inject filePath source m).value = (source, m) := by
  apply inject_of_nil
  unfold writtenRenames
  cases hfolder : m.folderOf? filePath with
  | none => rfl
  | some folder => exact substituted_eq_nil (h folder hfolder)

lemma mem_keys_of_inject {filePath key : Text} (h : m.folderOf? filePath = some folder)
    (hkey : key ∈ (d.inject filePath source m).value.2.folders.keys) : key ∈ m.folders.keys := by
  by_cases hsame : key = folder
  · subst hsame
    exact (List.mem_filter.mp (folderOf?_eq_some_iff.mp h).mem).1
  · have hmem {m : RenameMap} :
        key ∈ m.folders.keys ↔ ∃ names, m.folders.get? key = some names := by
      unfold SortedMap.keys
      simp only [List.mem_map, get?_eq_some_iff, Prod.exists, exists_and_right, exists_eq_right]
    rw [inject_lines source h, hmem, folders_get?_foldl m _ key hsame] at hkey
    exact hmem.mpr hkey

/-- Injecting twice is the same as injecting once. -/
theorem inject_twice (d : Dialect) (source : Text) {filePath : Text} {m : RenameMap}
    (hone : ∀ key ∈ m.folders.keys, ∀ other ∈ m.folders.keys, Text.contains key filePath = true →
      Text.contains other filePath = true → key = other)
    (hrenames : ∀ key ∈ m.folders.keys, Text.contains key filePath = true →
      ∀ old new, m.get? key old = some new → IssuedRename d old new ∧ ¬ Tangled d old) :
    (d.inject filePath (d.inject filePath source m).value.1
      (d.inject filePath source m).value.2).value = (d.inject filePath source m).value := by
  cases hfolder : m.folderOf? filePath with
  | none =>
    have honce := inject_none (d := d) source hfolder
    rw [honce, honce]
  | some folder =>
    obtain ⟨hkey, hcontains⟩ := List.mem_filter.mp (folderOf?_eq_some_iff.mp hfolder).mem
    have hsettled := settled_inject hfolder (hrenames folder hkey hcontains) source
    refine inject_of_settled fun folder' hfolder' => ?_
    obtain ⟨hkey', hcontains'⟩ := List.mem_filter.mp (folderOf?_eq_some_iff.mp hfolder').mem
    have hsame := hone folder' (mem_keys_of_inject hfolder hkey') folder hkey hcontains' hcontains
    rw [hsame]
    exact hsettled

def orderRenames : RenameMap :=
  (({} : RenameMap).insert "suite" "test_NEW_order" "test_gid_3_order").insert "suite"
    "test_NEW_refund" "test_gid_4_refund"

/-- The first name stands in the parentheses and in a comment as well, the second one nowhere. -/
def orderSource : Text :=
  "def test_NEW_order(test_NEW_order_user):  # test_NEW_order\r\n    pass"

theorem inject_twice_order :
    (∀ key ∈ orderRenames.folders.keys, ∀ other ∈ orderRenames.folders.keys,
      Text.contains key "suite/order.py" = true → Text.contains other "suite/order.py" = true →
        key = other) ∧
      (∀ key ∈ orderRenames.folders.keys, Text.contains key "suite/order.py" = true →
        ∀ old new, orderRenames.get? key old = some new →
          IssuedRename .annotatedFunction old new ∧ ¬ Tangled .annotatedFunction old) ∧
      let once := (Dialect.annotatedFunction.inject "suite/order.py" orderSource orderRenames).value
      (Dialect.annotatedFunction.inject "suite/order.py" once.1 once.2).value = once ∧
      once = ("def test_gid_3_order(test_gid_3_order_user):  # test_gid_3_order\r\n    pass".toList,
        ({} : RenameMap).insert "suite" "test_NEW_refund" "test_gid_4_refund") := by
  have hone : ∀ key ∈ orderRenames.folders.keys, ∀ other ∈ orderRenames.folders.keys,
      Text.contains key "suite/order.py" = true → Text.contains other "suite/order.py" = true →
        key = other := by decide +kernel
  have hlist : ∀ rename ∈ orderRenames.toList, freshToken .annotatedFunction <+: rename.2.1 ∧
      '#' ∉ rename.2.1 ∧ ∃ n ∈ [3, 4],
        rename.2.2 = Dialect.annotatedFunction.assignedName rename.2.1 (issuedId n) := by
    decide +kernel
  have hrenames : ∀ key ∈ orderRenames.folders.keys, Text.contains key "suite/order.py" = true →
      ∀ old new, orderRenames.get? key old = some new →
        IssuedRename .annotatedFunction old new ∧ ¬ Tangled .annotatedFunction old := by
    intro key _ _ old new hget
    obtain ⟨hfresh, hplain, n, -, hnew⟩ := hlist _ (mem_toList_iff.mpr hget)
    exact ⟨⟨hfresh, n, hnew⟩, fun htangled => hplain htangled.2.2⟩
  exact ⟨hone, hrenames, inject_twice .annotatedFunction orderSource hone hrenames,
    by decide +kernel⟩

/-- The new name of the second rename has the issued name of the first one in it. -/
def tangledRenames : RenameMap :=
  (({} : RenameMap).insert "suite" "test_NEW#\"'def test_NEW" "test_gid_1#\"'def test_NEW").insert
    "suite" "test_NEW#\"'def test_gid_1" "test_gid_2#\"'def test_gid_1"

/-- A name that holds a lead in quotes takes the rename across the lead of its line. The line then
declares the other name, which is still pending. -/
theorem inject_twice_tangled :
    (∀ key ∈ tangledRenames.folders.keys, ∀ other ∈ tangledRenames.folders.keys, key = other) ∧
      (∀ rename ∈ tangledRenames.toList, IssuedRename .annotatedFunction rename.2.1 rename.2.2) ∧
      let source : Text := "\"test_NEW#\"'def test_NEW#\"'def test_NEW#\"'def test_NEW\n"
      let once := (Dialect.annotatedFunction.inject "suite/a.py" source tangledRenames).value
      once.1 = "\"test_gid_1#\"'def test_NEW#\"'def test_gid_1#\"'def test_NEW\n" ∧
      once.2 = ({} : RenameMap).insert "suite" "test_NEW#\"'def test_gid_1"
        "test_gid_2#\"'def test_gid_1" ∧
      (Dialect.annotatedFunction.inject "suite/a.py" once.1 once.2).value ≠ once := by
  have hlist : ∀ rename ∈ tangledRenames.toList, freshToken .annotatedFunction <+: rename.2.1 ∧
      ∃ n ∈ [1, 2],
        rename.2.2 = Dialect.annotatedFunction.assignedName rename.2.1 (issuedId n) := by
    decide +kernel
  refine ⟨by decide +kernel, fun rename hrename => ?_, by decide +kernel⟩
  obtain ⟨hfresh, n, -, hnew⟩ := hlist rename hrename
  exact ⟨hfresh, n, hnew⟩

end TestCatalog.Proofs
