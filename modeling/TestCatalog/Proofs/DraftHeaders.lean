import TestCatalog.Proofs.DraftReading
import TestCatalog.Proofs.Headers

/-!
# Headers and openings of drafts

The header of a draft is classified by the mark in its name, gives the name back, and is followed
by an opening that its dialect takes.
-/

namespace TestCatalog.Proofs

/-- What stands behind the name on a header. -/
def headTail : Dialect → Text
  | .annotatedFunction => "():"
  | .keywordTable => ""
  | .featureScenario => ""

lemma headerLine_eq (d : Dialect) (name : Text) :
    headerLine d name = headLead d ++ (name ++ headTail d) := by
  cases d with
  | annotatedFunction => exact List.append_assoc _ _ _
  | keywordTable => exact (List.append_nil name).symm
  | featureScenario => exact congrArg _ (List.append_nil name).symm

/-- The mark of a header stands in its name. -/
lemma startsWith_headerLine_iff {d : Dialect} {kind : CaseKind} {name : Text} :
    Text.startsWith (headMark d kind) (headerLine d name) ↔ nameMark d kind <+: name := by
  rw [startsWith_iff, headMark_eq, headerLine_eq, List.prefix_append_right_inj]
  constructor
  · intro h
    rcases List.prefix_or_prefix_of_prefix h (List.prefix_append name (headTail d)) with hp | hp
    · exact hp
    · obtain ⟨t, ht⟩ := hp
      cases t with
      | nil => exact ⟨[], by rw [← ht, List.append_nil, List.append_nil]⟩
      | cons c t =>
        -- the mark would run over the end of the name into a parenthesis
        rw [← ht, List.prefix_append_right_inj] at h
        have hmem : c ∈ nameMark d kind := by rw [← ht]; simp
        cases d with
        | annotatedFunction =>
          obtain rfl : c = '(' := (List.cons_prefix_cons.mp h).1
          exact absurd hmem (by cases kind <;> decide)
        | keywordTable => exact absurd (List.prefix_nil.mp h) (List.cons_ne_nil c t)
        | featureScenario => exact absurd (List.prefix_nil.mp h) (List.cons_ne_nil c t)
  · exact fun h => h.trans (List.prefix_append name (headTail d))

lemma trimEnd_trimEnd (t : Text) : Text.trimEnd (Text.trimEnd t) = Text.trimEnd t :=
  trimEnd_eq_self (trimEnd_getLast? t)

lemma bareEnds_headMark (d : Dialect) (kind : CaseKind) : BareEnds (headMark d kind) := by
  cases d <;> cases kind <;> decide

lemma headMark_ne_nil (d : Dialect) (kind : CaseKind) : headMark d kind ≠ [] := by
  cases d <;> cases kind <;> decide

variable {d : Dialect} {name : Text}

/-- The name of a case is its mark and some rest, and its header is trimmed behind the rest. -/
lemma exists_rest (h : IsName d name) : ∃ kind rest, name = nameMark d kind ++ rest ∧
    Text.trim name = nameMark d kind ++ Text.trimEnd rest ∧
    Text.trim (headerLine d name) = headMark d kind ++ Text.trimEnd (rest ++ headTail d) := by
  obtain ⟨kind, hkind⟩ : ∃ kind, nameMark d kind <+: name := by
    rcases h.mark with h | h
    · exact ⟨.add, startsWith_headerLine_iff.mp h⟩
    · exact ⟨.update, startsWith_headerLine_iff.mp h⟩
  obtain ⟨rest, rfl⟩ := hkind
  refine ⟨kind, rest, rfl,
    trim_append_of_bareEnds (bareEnds_nameMark d kind) (nameMark_ne_nil d kind) rest, ?_⟩
  have hheader : headerLine d (nameMark d kind ++ rest) =
      headMark d kind ++ (rest ++ headTail d) := by
    rw [headerLine_eq, headMark_eq, List.append_assoc, List.append_assoc]
  rw [hheader, trim_append_of_bareEnds (bareEnds_headMark d kind) (headMark_ne_nil d kind)]

lemma nameSpan_headTail (kind : CaseKind) {rest : Text} (h : IsName d (nameMark d kind ++ rest)) :
    Text.trimEnd (nameSpan d (Text.trimEnd (rest ++ headTail d))) = Text.trimEnd rest := by
  cases d with
  | annotatedFunction =>
    have hplain (c : Char) (hc : c ∈ rest) : c ∉ ['(', ')', '#', '\'', '"'] :=
      h.plain rfl c (List.mem_append_right _ hc)
    have hend : Text.trimEnd (rest ++ "():") = rest ++ "():" := by
      refine trimEnd_eq_self fun c hc => ?_
      have hlast : ("():" : Text).getLast? = some ':' := by decide
      rw [List.getLast?_append, hlast] at hc
      cases hc
      decide
    have hcode : Dialect.codePart (rest ++ "():") = rest ++ "():" :=
      codePart_append (fun c hc hmem => hplain c hc (by simp at hmem ⊢; tauto)) _
    have hname : (rest ++ "():").takeWhile (· ≠ '(') = rest := by
      rw [List.takeWhile_append_of_pos fun c hc => ?_]
      · simp
      · exact decide_eq_true fun hparen => hplain c hc (by simp [hparen])
    show Text.trimEnd ((Dialect.codePart (Text.trimEnd (rest ++ "():"))).takeWhile _) = _
    rw [hend, hcode, hname]
  | keywordTable =>
    show Text.trimEnd (Text.trimEnd (rest ++ [])) = _
    rw [List.append_nil, trimEnd_trimEnd]
  | featureScenario =>
    show Text.trimEnd (Text.trimEnd (rest ++ [])) = _
    rw [List.append_nil, trimEnd_trimEnd]

/-- A header gives back the name that it was written with. -/
lemma nameOfHeader_headerLine (h : IsName d name) :
    d.nameOfHeader (Text.trim (headerLine d name)) = Text.trim name := by
  obtain ⟨kind, rest, rfl, hname, hheader⟩ := exists_rest h
  rw [hname, hheader, Dialect.nameOfHeader, headMark_eq, List.append_assoc, nameOnLine?_lead,
    nameSpan_mark, trimmed?_append (bareEnds_nameMark d kind) (nameMark_ne_nil d kind),
    nameSpan_headTail kind h, Option.getD_some]

/-! ## Openings -/

lemma signatureStep_headerLine (h : IsName .annotatedFunction name) :
    (Dialect.signatureStep 0 (Text.trim (headerLine .annotatedFunction name))).2 = true := by
  have hplain (c : Char) (hc : c ∈ name) : c ∉ ['(', ')', '#', '\'', '"'] := h.plain rfl c hc
  have hheader : headerLine .annotatedFunction name = "def " ++ name ++ "():" := rfl
  have hbare : BareEnds ("def " ++ name ++ "():") := by
    refine ⟨by simp [show Text.isBlank 'd' = false by decide], fun c hc => ?_⟩
    have hlast : ("():" : Text).getLast? = some ':' := by decide
    rw [List.getLast?_append, hlast] at hc
    cases hc
    decide
  have hcode : Dialect.codePart ("def " ++ name ++ "():") = "def " ++ name ++ "():" := by
    rw [codePart_append (s := "def " ++ name)]
    · rfl
    intro c hc hmem
    rcases List.mem_append.mp hc with hc | hc
    · exact absurd hmem ((show ∀ c ∈ ("def " : Text), c ∉ ['#', '\'', '"'] by decide) c hc)
    · exact hplain c hc (by simp at hmem ⊢; tauto)
  have hdepth : Dialect.openParens ("def " ++ name ++ "():") = 0 := by
    rw [openParens_append, openParens_append, openParens_eq_zero (t := name)]
    · rfl
    · exact fun c hc hmem => hplain c hc (by simp at hmem ⊢; tauto)
  have hlast : ("def " ++ name ++ "():" : Text).getLast? = some ':' := by
    rw [List.getLast?_append]
    rfl
  rw [hheader, trim_eq_self hbare]
  simp only [Dialect.signatureStep, hcode, trimEnd_eq_self hbare.2, hdepth, hlast]
  decide

lemma takes_expectQuotes (case : Text) : Takes (Dialect.expectQuotes case) [Dialect.tripleQuote] () :=
  fun n _ => ⟨n + 1, rfl, rfl⟩

lemma takes_expectOpening (case : Text) (h : IsName d name) :
    Takes (d.expectOpening (Text.trim (headerLine d name)) case) [Text.trimEnd (openerLine d)] () := by
  cases d with
  | annotatedFunction =>
    intro n rest
    have hends := signatureStep_headerLine h
    have hsignature : Yields (Dialect.expectSignature
        (Text.trim (headerLine .annotatedFunction name)) case)
        ⟨n, Dialect.tripleQuote :: rest⟩ () ⟨n, Dialect.tripleQuote :: rest⟩ := by
      simp only [Yields, Dialect.expectSignature, Dialect.skipSignature, hends, if_true]
      trivial
    obtain ⟨m, hm⟩ := takes_expectQuotes case n rest
    exact ⟨m, yields_bind_iff.mpr ⟨(), _, hsignature, hm⟩⟩
  | keywordTable => exact fun n _ => ⟨n + 1, rfl, rfl⟩
  | featureScenario => exact takes_expectQuotes case

end TestCatalog.Proofs
