import TestCatalog.Assembly.Basic
import TestCatalog.Proofs.Blanks

/-!
# Names on headers

A line that starts with a mark of its dialect declares a case, and the name that it declares starts
with the part of the mark that belongs to names.
-/

namespace TestCatalog.Proofs

/-- How the header of a case of the given kind starts. -/
def headMark (d : Dialect) : CaseKind → Text
  | .add => d.profile.addMark
  | .update => d.profile.updateMark

/-- How the name of a case of the given kind starts. -/
def nameMark : Dialect → CaseKind → Text
  | .annotatedFunction, .add => "test_NEW_"
  | .annotatedFunction, .update => "test_gid_"
  | .keywordTable, .add => "<NEW>"
  | .keywordTable, .update => "TC-GID"
  | .featureScenario, .add => "test_NEW"
  | .featureScenario, .update => "test_gid"

/-- What stands before the name on a header. -/
def headLead : Dialect → Text
  | .annotatedFunction => "def "
  | .keywordTable => ""
  | .featureScenario => "Scenario: "

lemma headMark_eq (d : Dialect) (kind : CaseKind) :
    headMark d kind = headLead d ++ nameMark d kind := by
  cases d <;> cases kind <;> rfl

lemma nameMark_ne_nil (d : Dialect) (kind : CaseKind) : nameMark d kind ≠ [] := by
  cases d <;> cases kind <;> decide

lemma bareEnds_nameMark (d : Dialect) (kind : CaseKind) : BareEnds (nameMark d kind) := by
  cases d <;> cases kind <;> decide

lemma startsWith_of_kindOfHeader? {a : Assembler} {header : Text} {kind : CaseKind}
    (h : a.kindOfHeader? header = some kind) :
    a.mode.accepts kind ∧ Text.startsWith (headMark a.dialect kind) header := by
  unfold Assembler.kindOfHeader? at h
  split_ifs at h with hadd hupdate
  · cases h
    exact (Bool.and_eq_true _ _).mp hadd
  · cases h
    exact (Bool.and_eq_true _ _).mp hupdate

lemma not_startsWith_headMark {d : Dialect} {header : Text}
    (h : Text.startsWith (headMark d .update) header) :
    ¬ Text.startsWith (headMark d .add) header := by
  intro h'
  obtain ⟨s, rfl⟩ := startsWith_iff.mp h
  rcases List.prefix_or_prefix_of_prefix (startsWith_iff.mp h') (List.prefix_append _ s) with hp | hp
  · revert hp
    cases d <;> decide
  · revert hp
    cases d <;> decide

lemma kindOfHeader?_eq_some {a : Assembler} {header : Text} {kind : CaseKind}
    (haccepts : a.mode.accepts kind) (h : Text.startsWith (headMark a.dialect kind) header) :
    a.kindOfHeader? header = some kind := by
  cases kind with
  | add =>
    have hadd : (a.mode.accepts .add && Text.startsWith a.dialect.profile.addMark header) = true :=
      (Bool.and_eq_true _ _).mpr ⟨haccepts, h⟩
    exact if_pos hadd
  | update =>
    have hadd : ¬ (a.mode.accepts .add && Text.startsWith a.dialect.profile.addMark header) = true :=
      fun hadd => not_startsWith_headMark h ((Bool.and_eq_true _ _).mp hadd).2
    have hupdate :
        (a.mode.accepts .update && Text.startsWith a.dialect.profile.updateMark header) = true :=
      (Bool.and_eq_true _ _).mpr ⟨haccepts, h⟩
    exact (if_neg hadd).trans (if_pos hupdate)

lemma kindOfHeader?_nil (a : Assembler) : a.kindOfHeader? [] = none := by
  have hmark (kind : CaseKind) : Text.startsWith (headMark a.dialect kind) [] = false := by
    cases a.dialect <;> cases kind <;> decide
  cases h : a.kindOfHeader? [] with
  | none => rfl
  | some kind =>
    have hstart := (startsWith_of_kindOfHeader? h).2
    rw [hmark] at hstart
    cases hstart

/-! ## Names -/

lemma after?_append (needle t : Text) : Text.after? needle (needle ++ t) = some t := by
  cases h : needle ++ t with
  | nil =>
    obtain ⟨rfl, rfl⟩ := List.append_eq_nil_iff.mp h
    rfl
  | cons c rest =>
    rw [Text.after?, ← h, stripStart?_append]

lemma cut?_append_self (needle t : Text) : Text.cut? needle (needle ++ t) = some ([], t) := by
  cases h : needle ++ t with
  | nil =>
    obtain ⟨rfl, rfl⟩ := List.append_eq_nil_iff.mp h
    rfl
  | cons c rest => rw [Text.cut?, ← h, stripStart?_append]

lemma codePart_append {s : Text} (hs : ∀ c ∈ s, c ∉ ['#', '\'', '"']) (t : Text) :
    Dialect.codePart (s ++ t) = s ++ Dialect.codePart t := by
  unfold Dialect.codePart
  induction s with
  | nil => rfl
  | cons c s ih =>
    have hc := hs c List.mem_cons_self
    have hhash : c ≠ '#' := fun h => hc (by simp [h])
    have hquote : ¬ (c = '\'' ∨ c = '"') := fun h => hc (by rcases h with h | h <;> simp [h])
    rw [List.cons_append, Dialect.codeFrom, if_neg hhash, if_neg hquote,
      ih fun c' hc' => hs c' (List.mem_cons_of_mem c hc')]
    rfl

lemma trimmed?_append {s : Text} (hs : BareEnds s) (hne : s ≠ []) (t : Text) :
    Dialect.trimmed? (s ++ t) = some (s ++ Text.trimEnd t) := by
  have htrim := trim_append_of_bareEnds hs hne t
  unfold Dialect.trimmed?
  simp only [htrim]
  exact if_neg (List.append_ne_nil_of_left_ne_nil hne _)

/-- The text that holds the name on a line, if the line declares one: it runs to the parenthesis in
the code of a function, and to the end of the line elsewhere. -/
def nameSpan : Dialect → (afterLead : Text) → Text
  | .annotatedFunction, t => (Dialect.codePart t).takeWhile (· ≠ '(')
  | .keywordTable, t => t
  | .featureScenario, t => t

lemma nameOnLine?_lead (d : Dialect) (t : Text) :
    d.nameOnLine? (headLead d ++ t) = Dialect.trimmed? (nameSpan d t) := by
  cases d with
  | annotatedFunction =>
    have hname (line : Text) : Dialect.annotatedFunction.nameOnLine? line =
        (Text.after? "def " (Dialect.codePart line)).bind fun rest =>
          Dialect.trimmed? (rest.takeWhile (· ≠ '(')) := rfl
    have hcode : Dialect.codePart ("def " ++ t) = "def " ++ Dialect.codePart t :=
      codePart_append (by decide) t
    show Dialect.annotatedFunction.nameOnLine? ("def " ++ t) = _
    rw [hname, hcode, after?_append, Option.bind_some]
    rfl
  | keywordTable => rfl
  | featureScenario =>
    have hname (line : Text) : Dialect.featureScenario.nameOnLine? line =
        (Text.after? "Scenario: " line).bind Dialect.trimmed? := rfl
    show Dialect.featureScenario.nameOnLine? ("Scenario: " ++ t) = _
    rw [hname, after?_append, Option.bind_some]
    rfl

lemma nameSpan_mark (d : Dialect) (kind : CaseKind) (t : Text) :
    nameSpan d (nameMark d kind ++ t) = nameMark d kind ++ nameSpan d t := by
  cases d with
  | annotatedFunction =>
    have hplain : ∀ c ∈ nameMark .annotatedFunction kind, c ∉ ['#', '\'', '"'] := by
      cases kind <;> decide
    have hparen : ∀ c ∈ nameMark .annotatedFunction kind, (decide (c ≠ '(')) = true := by
      cases kind <;> decide
    rw [nameSpan, codePart_append hplain, List.takeWhile_append_of_pos hparen]
    rfl
  | keywordTable => rfl
  | featureScenario => rfl

/-- A header declares a name that starts with the mark of its kind. -/
theorem nameOnLine?_of_startsWith {d : Dialect} {kind : CaseKind} {header : Text}
    (h : Text.startsWith (headMark d kind) header) :
    ∃ t, header = headMark d kind ++ t ∧
      d.nameOnLine? header = some (nameMark d kind ++ Text.trimEnd (nameSpan d t)) := by
  obtain ⟨t, rfl⟩ := startsWith_iff.mp h
  refine ⟨t, rfl, ?_⟩
  rw [headMark_eq, List.append_assoc, nameOnLine?_lead, nameSpan_mark,
    trimmed?_append (bareEnds_nameMark d kind) (nameMark_ne_nil d kind)]

lemma trimmed?_eq_some {t name : Text} (h : Dialect.trimmed? t = some name) :
    name = Text.trim t ∧ name ≠ [] := by
  unfold Dialect.trimmed? at h
  simp only at h
  split_ifs at h with hblank
  cases h
  exact ⟨rfl, hblank⟩

lemma nameOfHeader_of_startsWith {d : Dialect} {kind : CaseKind} {header : Text}
    (h : Text.startsWith (headMark d kind) header) :
    ∃ t, header = headMark d kind ++ t ∧
      d.nameOfHeader header = nameMark d kind ++ Text.trimEnd (nameSpan d t) := by
  obtain ⟨t, ht, hname⟩ := nameOnLine?_of_startsWith h
  exact ⟨t, ht, by rw [Dialect.nameOfHeader, hname, Option.getD_some]⟩

/-! ## Parentheses -/

lemma openParens_append (s t : Text) :
    Dialect.openParens (s ++ t) = Dialect.openParens s + Dialect.openParens t := by
  have hshift (depth : Int) (t : Text) : t.foldl (fun depth c =>
      if c = '(' then depth + 1 else if c = ')' then depth - 1 else depth) depth =
        depth + Dialect.openParens t := by
    unfold Dialect.openParens
    induction t generalizing depth with
    | nil => simp
    | cons c t ih =>
      rw [List.foldl_cons, List.foldl_cons, ih, ih (if c = '(' then _ else _)]
      split_ifs <;> omega
  rw [Dialect.openParens, List.foldl_append, hshift]
  rfl

lemma openParens_eq_zero {t : Text} (h : ∀ c ∈ t, c ∉ ['(', ')']) :
    Dialect.openParens t = 0 := by
  induction t with
  | nil => rfl
  | cons c t ih =>
    have hc := h c List.mem_cons_self
    have hone : Dialect.openParens [c] = 0 := by
      simp only [List.mem_cons, List.not_mem_nil, or_false, not_or] at hc
      simp [Dialect.openParens, hc]
    rw [← List.singleton_append, openParens_append, hone,
      ih fun c' hc' => h c' (List.mem_cons_of_mem c hc')]
    rfl

end TestCatalog.Proofs
