import TestCatalog.Proofs.FilteredBlocks

/-!
# Declaring lines

The source line on which the header of a case begins may declare the name of the case, though a
header that is joined from several lines need not. Where the line does, the name stands on it right
below the blanks and the lead of the header.
-/

namespace TestCatalog.Proofs

/-! ## Names within lines -/

lemma prefix_codeFrom (quote : Option Char) (t : Text) : Dialect.codeFrom quote t <+: t := by
  induction t generalizing quote with
  | nil => cases quote <;> exact List.prefix_rfl
  | cons c t ih =>
    cases quote with
    | none =>
      rw [Dialect.codeFrom]
      split_ifs
      · exact List.nil_prefix
      · exact List.cons_prefix_cons.mpr ⟨rfl, ih _⟩
      · exact List.cons_prefix_cons.mpr ⟨rfl, ih _⟩
    | some q =>
      rw [Dialect.codeFrom]
      exact List.cons_prefix_cons.mpr ⟨rfl, ih _⟩

lemma after?_suffix {needle t rest : Text} (h : Text.after? needle t = some rest) : rest <:+ t := by
  induction t with
  | nil =>
    rw [Text.after?] at h
    rw [stripStart?_eq_some h]
    exact List.suffix_append _ _
  | cons c t ih =>
    rw [Text.after?] at h
    cases hstrip : Text.stripStart? needle (c :: t) with
    | none =>
      simp only [hstrip] at h
      exact (ih h).trans (List.suffix_cons c t)
    | some rest' =>
      simp only [hstrip] at h
      cases h
      rw [stripStart?_eq_some hstrip]
      exact List.suffix_append _ _

lemma trim_sublist (t : Text) : (Text.trim t).Sublist t := by
  obtain ⟨l, r, -, -, ht⟩ := exists_trim t
  conv_rhs => rw [ht]
  exact (List.sublist_append_right l _).trans (List.sublist_append_left _ r)

/-- The characters of a name stand in their order on the line that declares it. -/
theorem sublist_of_nameOnLine? {d : Dialect} {line name : Text}
    (h : d.nameOnLine? line = some name) : name.Sublist line := by
  have htrimmed {t : Text} (h : Dialect.trimmed? t = some name) : name.Sublist t :=
    (trimmed?_eq_some h).1 ▸ trim_sublist t
  cases d with
  | annotatedFunction =>
    obtain ⟨rest, hrest, hname⟩ := Option.bind_eq_some_iff.mp h
    exact ((htrimmed hname).trans (List.takeWhile_prefix _).sublist).trans
      ((after?_suffix hrest).sublist.trans (prefix_codeFrom none line).sublist)
  | keywordTable => exact htrimmed h
  | featureScenario =>
    obtain ⟨rest, hrest, hname⟩ := Option.bind_eq_some_iff.mp h
    exact (htrimmed hname).trans (after?_suffix hrest).sublist

lemma after?_append_left {needle l : Text} (hneedle : needle ≠ [])
    (hl : ∀ c ∈ l, needle.head? ≠ some c) (t : Text) :
    Text.after? needle (l ++ (needle ++ t)) = some t := by
  induction l with
  | nil => exact after?_append needle t
  | cons c l ih =>
    have hstrip : Text.stripStart? needle (c :: (l ++ (needle ++ t))) = none := by
      obtain ⟨c', o, rfl⟩ := List.exists_cons_of_ne_nil hneedle
      have hne : c' ≠ c := fun h => hl c List.mem_cons_self (congrArg some h)
      rw [Text.stripStart?, if_neg hne]
    rw [List.cons_append, Text.after?, hstrip]
    exact ih fun c' hc' => hl c' (List.mem_cons_of_mem c hc')

lemma nameOnLine?_append_left (d : Dialect) {l : Text} (hl : AllBlank l) (t : Text) :
    d.nameOnLine? (l ++ (headLead d ++ t)) = d.nameOnLine? (headLead d ++ t) := by
  have hblank {c : Char} (hc : c ∈ l) {c' : Char} (hc' : Text.isBlank c' = false) : c' ≠ c := by
    rintro rfl
    rw [hl c' hc] at hc'
    cases hc'
  cases d with
  | annotatedFunction =>
    have hplain : ∀ c ∈ l, c ∉ ['#', '\'', '"'] := by
      intro c hc hmem
      simp only [List.mem_cons, List.not_mem_nil, or_false] at hmem
      rcases hmem with rfl | rfl | rfl <;> exact hblank hc (by decide) rfl
    have hlead : Dialect.codePart ("def " ++ t) = "def " ++ Dialect.codePart t :=
      codePart_append (by decide) t
    have hcode : Dialect.codePart (l ++ ("def " ++ t)) = l ++ ("def " ++ Dialect.codePart t) := by
      rw [codePart_append hplain, hlead]
    have hafter : Text.after? "def " (l ++ ("def " ++ Dialect.codePart t)) =
        some (Dialect.codePart t) := by
      refine after?_append_left (by decide) (fun c hc h => ?_) _
      cases h
      exact hblank hc (by decide) rfl
    have hname (line : Text) : Dialect.annotatedFunction.nameOnLine? line =
        (Text.after? "def " (Dialect.codePart line)).bind fun rest =>
          Dialect.trimmed? (rest.takeWhile (· ≠ '(')) := rfl
    show Dialect.annotatedFunction.nameOnLine? (l ++ ("def " ++ t)) =
      Dialect.annotatedFunction.nameOnLine? ("def " ++ t)
    rw [hname, hname, hcode, hafter, hlead, after?_append]
  | keywordTable =>
    show Dialect.trimmed? (l ++ t) = Dialect.trimmed? t
    unfold Dialect.trimmed?
    rw [trim_append_left hl]
  | featureScenario =>
    have hafter : Text.after? "Scenario: " (l ++ ("Scenario: " ++ t)) = some t := by
      refine after?_append_left (by decide) (fun c hc h => ?_) _
      cases h
      exact hblank hc (by decide) rfl
    have hname (line : Text) : Dialect.featureScenario.nameOnLine? line =
        (Text.after? "Scenario: " line).bind Dialect.trimmed? := rfl
    show Dialect.featureScenario.nameOnLine? (l ++ ("Scenario: " ++ t)) =
      Dialect.featureScenario.nameOnLine? ("Scenario: " ++ t)
    rw [hname, hname, hafter, after?_append]

lemma prefix_nameSpan (d : Dialect) (t : Text) : nameSpan d t <+: t := by
  cases d with
  | annotatedFunction => exact (List.takeWhile_prefix _).trans (prefix_codeFrom none t)
  | keywordTable => exact List.prefix_rfl
  | featureScenario => exact List.prefix_rfl

lemma prefix_trimEnd (t : Text) : Text.trimEnd t <+: t := by
  obtain ⟨r, -, h⟩ := exists_trimEnd t
  exact ⟨r, h.symm⟩

/-- A line that starts as the header of a new case does has the name that it declares right below
its lead. -/
theorem exists_eq_of_prefix {d : Dialect} {line name : Text}
    (hstart : headMark d .add <+: Text.trimStart line) (hname : d.nameOnLine? line = some name) :
    ∃ l z, AllBlank l ∧ line = l ++ (headLead d ++ name ++ z) := by
  obtain ⟨l, hl, hline⟩ := exists_trimStart line
  obtain ⟨y, hy⟩ := hstart
  rw [← hy, headMark_eq, List.append_assoc] at hline
  rw [hline, nameOnLine?_append_left d hl, nameOnLine?_lead, nameSpan_mark,
    trimmed?_append (bareEnds_nameMark d .add) (nameMark_ne_nil d .add)] at hname
  cases hname
  obtain ⟨z, hz⟩ := (prefix_trimEnd (nameSpan d y)).trans (prefix_nameSpan d y)
  refine ⟨l, z, hl, ?_⟩
  rw [hline, List.append_assoc, List.append_assoc, hz]

/-! ## Names on joined headers -/

lemma exists_waiting (t : Text) : ∃ tail, t = waiting t ++ tail ∧ '_' ∉ tail := by
  let p : Char → Bool := (· = '\\')
  have hdrop : t = Text.dropEndWhile p t ++ (t.reverse.takeWhile p).reverse := by
    have happend := congrArg List.reverse (List.takeWhile_append_dropWhile (p := p) (l := t.reverse))
    rw [List.reverse_append, List.reverse_reverse] at happend
    exact happend.symm
  obtain ⟨r, hr, htrim⟩ := exists_trimEnd (Text.dropEndWhile p t)
  refine ⟨r ++ (t.reverse.takeWhile p).reverse, ?_, fun hmem => ?_⟩
  · rw [← List.append_assoc, waiting, ← htrim, ← hdrop]
  · rcases List.mem_append.mp hmem with hmem | hmem
    · exact absurd (hr '_' hmem) (by decide)
    · have hbackslash : p '_' = true := List.mem_takeWhile_imp (List.mem_reverse.mp hmem)
      exact absurd hbackslash (by decide)

/-- A line that waits stays at the start of the line that it is joined to. -/
lemma prefix_joinSpan {w : Text} (hw : ∀ c ∈ w.getLast?, Text.isBlank c = false) (ls : List Text) :
    w <+: joinSpan (w ++ " ") ls := by
  induction ls generalizing w with
  | nil => exact List.prefix_append w _
  | cons line ls ih =>
    rw [joinSpan]
    by_cases hgoes : goesOn line = true
    · have hleads : w <+: waiting (w ++ " " ++ line) := by
        have hspace : Text.dropEndWhile (· = '\\') (" " ++ line) ≠ [] := by
          intro hnil
          unfold Text.dropEndWhile at hnil
          rw [List.reverse_eq_nil_iff, List.dropWhile_eq_nil_iff] at hnil
          have hbackslash := hnil ' ' (List.mem_reverse.mpr List.mem_cons_self)
          exact absurd hbackslash (by decide)
        unfold waiting
        rw [List.append_assoc, dropEndWhile_append, if_neg hspace]
        have htrim (v : Text) : Text.trimEnd (w ++ v) =
            if Text.trimEnd v = [] then Text.trimEnd w else w ++ Text.trimEnd v :=
          dropEndWhile_append _ _ _
        rw [htrim]
        split_ifs
        · have hself := trimEnd_eq_self hw
          exact hself.symm ▸ List.prefix_rfl
        · exact List.prefix_append _ _
      rw [if_pos hgoes]
      exact hleads.trans (ih (trimEnd_getLast? _))
    · rw [if_neg hgoes, List.append_assoc]
      exact List.prefix_append _ _

lemma headMark_prefix_or {w u : Text} (h : headMark .annotatedFunction .add <+: w ++ u) :
    headMark .annotatedFunction .add <+: w ∨ List.count '_' w < 2 := by
  rcases List.prefix_or_prefix_of_prefix h (List.prefix_append w u) with hmark | hmark
  · exact .inl hmark
  · have hlast : headMark .annotatedFunction .add = "def test_NEW" ++ ['_'] := rfl
    rw [hlast, List.prefix_concat_iff] at hmark
    rcases hmark with hmark | hmark
    · exact .inl (hmark ▸ List.prefix_rfl)
    · have hcount : List.count '_' ("def test_NEW" : Text) = 1 := by decide
      have hle := hmark.sublist.count_le '_'
      rw [hcount] at hle
      exact .inr (by omega)

/-- If the line on which a joined header begins declares a fresh name, it holds the whole mark: the
name has more underscores than any shorter start of the mark. -/
lemma headMark_prefix_of_joined {line lead name : Text} {more : List Text} (hlead : AllBlank lead)
    (hheader : headMark .annotatedFunction .add <+: Text.trim (joinSpan lead (Text.trim line :: more)))
    (hfresh : freshMark .annotatedFunction <+: name) (hname : name.Sublist line) :
    headMark .annotatedFunction .add <+: Text.trim line := by
  have hcount : 2 ≤ List.count '_' (Text.trim line) := by
    obtain ⟨l, r, hl, hr, hline⟩ := exists_trim line
    have hblank {s : Text} (hs : AllBlank s) : List.count '_' s = 0 :=
      List.count_eq_zero.mpr fun hmem => absurd (hs '_' hmem) (by decide)
    have hmark : List.count '_' (freshMark .annotatedFunction) = 2 := by decide
    have hle := (hfresh.sublist.trans hname).count_le '_'
    conv_rhs at hle => rw [hline]
    rw [List.count_append, List.count_append, hblank hl, hblank hr, hmark] at hle
    omega
  rw [joinSpan] at hheader
  split_ifs at hheader with hgoes
  · -- the line waits for the next one: what is left of it starts the header
    have hleads := prefix_joinSpan (w := waiting (lead ++ Text.trim line)) (trimEnd_getLast? _) more
    obtain ⟨u, hu⟩ := hleads
    rw [← hu] at hheader
    obtain ⟨tail, htail, hplain⟩ := exists_waiting (lead ++ Text.trim line)
    have hblank : List.count '_' lead = 0 :=
      List.count_eq_zero.mpr fun hmem => absurd (hlead '_' hmem) (by decide)
    have hwaiting : 2 ≤ List.count '_' (waiting (lead ++ Text.trim line)) := by
      have hsum := congrArg (List.count '_') htail
      rw [List.count_append, List.count_append, hblank, List.count_eq_zero.mpr hplain] at hsum
      omega
    rcases List.prefix_or_prefix_of_prefix (List.prefix_append lead (Text.trim line))
      (htail ▸ List.prefix_append _ tail) with hw | hw
    · obtain ⟨w, hw⟩ := hw
      rw [← hw, List.append_assoc, trim_append_left hlead] at hheader
      rw [← hw, List.append_assoc] at htail
      have htail := List.append_cancel_left htail
      rw [← hw, List.count_append, hblank, Nat.zero_add] at hwaiting
      have hstart : Text.trimStart (w ++ u) = w ++ u := by
        refine trimStart_eq_self fun c hc => (bareEnds_trim line).1 c ?_
        have hne : w ≠ [] := by
          rintro rfl
          simp at hwaiting
        obtain ⟨c', w', rfl⟩ := List.exists_cons_of_ne_nil hne
        rw [htail]
        exact hc
      rw [Text.trim, hstart] at hheader
      rcases headMark_prefix_or (hheader.trans (prefix_trimEnd _)) with hmark | hfew
      · rw [htail]
        exact hmark.trans (List.prefix_append w tail)
      · omega
    · have hnone := hw.sublist.count_le '_'
      omega
  · rwa [trim_append_left hlead, trim_trim] at hheader

/-! ## Headers of new cases -/

/-- Where the line on which a header begins declares the name of the new case, the name stands right
below the lead of the line. -/
theorem exists_eq_of_start {d : Dialect} {ls : List Text} {k j : ℕ} {row line rest : Text}
    (hstart : (rowStarts d ls)[k]? = some j) (hrow : (blockRows d ls)[k]? = some row)
    (hheader : Text.startsWith (headMark d .add) (Text.trim row) = true) (hline : ls[j]? = some line)
    (hname : d.nameOnLine? line = some (freshMark d ++ rest)) :
    ∃ l z, AllBlank l ∧ line = l ++ (headLead d ++ (freshMark d ++ rest) ++ z) := by
  refine exists_eq_of_prefix ?_ hname
  have hheader := startsWith_iff.mp hheader
  cases d with
  | annotatedFunction =>
    obtain ⟨lead, line', more, hlead, -, hline', hrow'⟩ := exists_line_of_start hstart
    have hrow : ((spans (ls.map Text.trim)).map (joinSpan []))[k]? = some row := hrow
    have hline' : (ls.map Text.trim)[j]? = some line' := hline'
    rw [List.getElem?_map, hline] at hline'
    cases hline'
    have hrow' : ((spans (ls.map Text.trim)).map (joinSpan []))[k]? = _ := hrow'
    rw [hrow] at hrow'
    cases hrow'
    exact (headMark_prefix_of_joined hlead hheader (List.prefix_append _ rest)
      (sublist_of_nameOnLine? hname)).trans (prefix_trimEnd _)
  | keywordTable =>
    have htrim : freshMark .keywordTable ++ rest = Text.trim line := (trimmed?_eq_some hname).1
    have hmark : headMark .keywordTable .add <+: freshMark .keywordTable := by decide
    refine (hmark.trans (List.prefix_append _ rest)).trans ?_
    rw [htrim]
    exact prefix_trimEnd _
  | featureScenario =>
    have hk : k = j := by
      have hrange : (List.range ls.length)[k]? = some j := hstart
      obtain ⟨hlt, hget⟩ := List.getElem?_eq_some_iff.mp hrange
      rwa [List.getElem_range] at hget
    subst hk
    have hrow : (ls.map Text.trim)[k]? = some row := hrow
    rw [List.getElem?_map, hline] at hrow
    cases hrow
    rw [trim_trim] at hheader
    exact hheader.trans (prefix_trimEnd _)

end TestCatalog.Proofs
