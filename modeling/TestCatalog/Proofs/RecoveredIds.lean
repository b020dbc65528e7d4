import TestCatalog.Proofs.DeclaringLines

/-!
# Recovered identifiers

A header whose name is issued an identifier starts a case with an identifier from then on. The
identifier is read back whole and alone exactly if the name goes on behind its token with something
that ends identifiers. The marks of functions see to that, those of the other dialects do not.
-/

namespace TestCatalog.Proofs

/-- What may follow the token of a name so that the identifier ends with it. -/
def EndsToken : Dialect → (rest : Text) → Prop
  | .annotatedFunction, rest | .featureScenario, rest =>
    ∀ c ∈ rest.head?, c = '_' ∨ Text.isBlank c = true
  | .keywordTable, rest => AllBlank (rest.takeWhile (· ≠ ':'))

/-! ## Names behind their leads -/

section Replacement

variable {old new : Text}

lemma replaceFirst_cons {c : Char} {t : Text} (h : ¬ old <+: c :: t) :
    Text.replaceFirst old new (c :: t) = c :: Text.replaceFirst old new t := by
  have hstrip : Text.stripStart? old (c :: t) = none := by
    cases hrest : Text.stripStart? old (c :: t) with
    | none => rfl
    | some rest => exact absurd ⟨rest, (stripStart?_eq_some hrest).symm⟩ h
  unfold Text.replaceFirst
  rw [Text.cut?, hstrip]
  cases Text.cut? old t <;> rfl

lemma replaceFirst_append_left {l : Text} (hold : old ≠ []) (hl : ∀ c ∈ l, old.head? ≠ some c)
    (t : Text) : Text.replaceFirst old new (l ++ (old ++ t)) = l ++ (new ++ t) := by
  induction l with
  | nil => exact replaceFirst_append old new t
  | cons c l ih =>
    have hstart := not_prefix_of_head? hold (hl c List.mem_cons_self) (l ++ (old ++ t))
    rw [List.cons_append, replaceFirst_cons hstart,
      ih fun c' hc' => hl c' (List.mem_cons_of_mem c hc')]
    rfl

end Replacement

variable {d : Dialect} {n : ℕ} {rest : Text}

lemma freshToken_prefix (d : Dialect) : freshToken d <+: nameMark d .add := by
  cases d <;> decide

lemma inert_freshToken (d : Dialect) : ∀ c ∈ freshToken d, Inert c := by
  cases d <;> decide

lemma inert_issuedToken (d : Dialect) (n : ℕ) : ∀ c ∈ issuedToken d n, Inert c := by
  intro c hc
  apply inert_issuedMark d n
  rw [issuedMark_eq_token]
  exact List.mem_append_left _ hc

lemma freshToken_ne_nil (d : Dialect) : freshToken d ≠ [] := by
  cases d <;> decide

lemma issuedToken_ne_nil (d : Dialect) (n : ℕ) : issuedToken d n ≠ [] := by
  cases d <;> exact List.cons_ne_nil _ _

lemma prefix_lead_issuedToken (d : Dialect) (n : ℕ) :
    headMark d .update <+: headLead d ++ issuedToken d n := by
  cases d with
  | annotatedFunction => exact ⟨Text.ofNat n, rfl⟩
  | keywordTable => exact ⟨"-" ++ Text.ofNat n, rfl⟩
  | featureScenario => exact ⟨"_" ++ Text.ofNat n, rfl⟩

/-- The name on the header of a new case stands right behind the lead and starts with the token. -/
lemma exists_eq_of_fresh {header : Text} (h : Text.startsWith (headMark d .add) header) :
    ∃ rest tail, header = headLead d ++ (freshToken d ++ rest ++ tail) ∧
      d.nameOfHeader header = freshToken d ++ rest ∧
      d.nameOfHeader (headLead d ++ (issuedToken d n ++ rest ++ tail)) = issuedToken d n ++ rest := by
  obtain ⟨y, rfl⟩ := startsWith_iff.mp h
  obtain ⟨more, hmore⟩ := freshToken_prefix d
  obtain ⟨tail, htail⟩ :=
    (prefix_trimEnd (nameSpan d (more ++ y))).trans (prefix_nameSpan d (more ++ y))
  have hheader : headMark d .add ++ y = headLead d ++ freshToken d ++ (more ++ y) := by
    rw [headMark_eq, ← hmore]
    simp only [List.append_assoc]
  have hrenamed : headLead d ++ (issuedToken d n ++ Text.trimEnd (nameSpan d (more ++ y)) ++ tail) =
      headLead d ++ issuedToken d n ++ (more ++ y) := by
    rw [List.append_assoc (issuedToken d n), htail, ← List.append_assoc]
  refine ⟨Text.trimEnd (nameSpan d (more ++ y)), tail, ?_, ?_, ?_⟩
  · rw [hheader, List.append_assoc (freshToken d), htail, List.append_assoc]
  · rw [hheader, nameOfHeader_mark (inert_freshToken d) (freshToken_ne_nil d)]
  · rw [hrenamed, nameOfHeader_mark (inert_issuedToken d n) (issuedToken_ne_nil d n)]

lemma head?_freshToken_append (rest : Text) :
    ∀ c ∈ headLead d, (freshToken d ++ rest).head? ≠ some c := by
  have hhead : (freshToken d ++ rest).head? = (freshToken d).head? := by cases d <;> rfl
  rw [hhead]
  cases d <;> decide

/-! ## Identifiers -/

lemma idTail_eq_nil_iff : idTail d rest = [] ↔ EndsToken d rest := by
  have hfunction : (rest.takeWhile fun c => c ≠ '_' && !Text.isBlank c) = [] ↔
      ∀ c ∈ rest.head?, c = '_' ∨ Text.isBlank c = true := by
    cases rest with
    | nil => simp
    | cons c rest => by_cases hc : c = '_' <;> simp [hc]
  cases d with
  | annotatedFunction => exact hfunction
  | keywordTable => exact trimEnd_eq_nil_iff
  | featureScenario => exact hfunction

lemma endsToken_annotatedFunction (hd : d = .annotatedFunction) {header : Text}
    (h : Text.startsWith (headMark d .add) header)
    (hname : d.nameOfHeader header = freshToken d ++ rest) : EndsToken d rest := by
  subst hd
  obtain ⟨t, -, hmark⟩ := nameOfHeader_of_startsWith h
  have hrest : freshToken .annotatedFunction ++
      ("_" ++ Text.trimEnd (nameSpan .annotatedFunction t)) = freshToken .annotatedFunction ++ rest :=
    hmark.symm.trans hname
  intro c hc
  rw [← List.append_cancel_left hrest] at hc
  exact .inl (Option.some.inj hc).symm

/-- Renaming a new case makes its header that of a case with the identifier that was issued, if the
name goes on in a way that ends the identifier, and else of a case with another identifier. -/
theorem idOfName_assignedName_iff {a : Assembler} {header : Text}
    (h : a.kindOfHeader? header = some .add) (n : ℕ) :
    let d := a.dialect
    let name := d.nameOfHeader header
    let new := d.assignedName name (issuedId n)
    -- the name may be replaced once or wherever it stands
    (∀ renamed ∈ [Text.replaceFirst name new header, Text.replaceAll name new header],
      ∀ b : Assembler, b.dialect = d → b.mode.accepts .update →
        b.kindOfHeader? renamed = some .update) ∧
    d.nameOfHeader (Text.replaceFirst name new header) = new ∧
    ∃ rest, name = freshToken d ++ rest ∧ (d.idOfName new = issuedId n ↔ EndsToken d rest) ∧
      (d = .annotatedFunction → EndsToken d rest) := by
  intro d name new
  have hstart : Text.startsWith (headMark d .add) header = true := (startsWith_of_kindOfHeader? h).2
  obtain ⟨rest, tail, hheader, hname, hrenamed⟩ := exists_eq_of_fresh (n := n) hstart
  have hnew : new = issuedToken d n ++ rest := by
    show d.assignedName (d.nameOfHeader header) _ = _
    rw [hname, assignedName_freshToken]
  have hname : name = freshToken d ++ rest := hname
  have hne : name ≠ [] := hname ▸ List.append_ne_nil_of_left_ne_nil (freshToken_ne_nil d) rest
  have hlead : ∀ c ∈ headLead d, name.head? ≠ some c := hname ▸ head?_freshToken_append rest
  have hfirst : Text.replaceFirst name new header = headLead d ++ (new ++ tail) := by
    rw [hheader, ← hname, replaceFirst_append_left hne hlead]
  have hall : Text.replaceAll name new header =
      headLead d ++ (new ++ Text.replaceAll name new tail) := by
    rw [hheader, ← hname, replaceAll_append_left hne hlead, replaceAll_append_old hne]
  have hupdate (tail : Text) : headMark d .update <+: headLead d ++ (new ++ tail) := by
    rw [hnew, List.append_assoc, ← List.append_assoc]
    exact (prefix_lead_issuedToken d n).trans (List.prefix_append _ _)
  refine ⟨?_, ?_, rest, hname, ?_, ?_⟩
  · intro renamed hmem b hb haccepts
    apply kindOfHeader?_eq_some haccepts
    rw [hb, startsWith_iff]
    simp only [List.mem_cons, List.not_mem_nil, or_false, hfirst, hall] at hmem
    rcases hmem with rfl | rfl <;> exact hupdate _
  · rw [hfirst, hnew, hrenamed]
  · rw [hnew, idOfName_issuedToken, List.append_right_eq_self, idTail_eq_nil_iff]
  · intro hd
    exact endsToken_annotatedFunction hd hstart hname

def scenarioAssembler : Assembler :=
  ⟨{ defaultProject := "MASTER" }, .featureScenario, .both, "suite"⟩

theorem idOfName_assignedName_login :
    scenarioAssembler.kindOfHeader? "Scenario: test_NEW_login" = some .add ∧
      Dialect.featureScenario.idOfName
        (Dialect.featureScenario.assignedName "test_NEW_login" (issuedId 5)) = issuedId 5 := by
  have hkind : scenarioAssembler.kindOfHeader? "Scenario: test_NEW_login" = some .add := by decide
  have hname : Dialect.featureScenario.nameOfHeader "Scenario: test_NEW_login" =
      "test_NEW_login" := by decide
  obtain ⟨-, -, rest, hrest, hid, -⟩ := idOfName_assignedName_iff hkind 5
  refine ⟨hkind, ?_⟩
  rw [← hname]
  apply hid.mpr
  have hlogin : freshToken .featureScenario ++ "_login" = freshToken .featureScenario ++ rest :=
    hname.symm.trans hrest
  rw [← List.append_cancel_left hlogin]
  show EndsToken .featureScenario "_login"
  intro c hc
  exact .inl (Option.some.inj hc).symm

/-- The token of a scenario may stand in the middle of a word, which the identifier then takes in. -/
theorem idOfName_assignedName_newlogin :
    scenarioAssembler.kindOfHeader? (Text.trim "Scenario: test_NEWlogin") = some .add ∧
      Dialect.featureScenario.assignedName
        (Dialect.featureScenario.nameOfHeader "Scenario: test_NEWlogin") (issuedId 5) =
          "test_gid_5login" ∧
      Dialect.featureScenario.idOfName "test_gid_5login" ≠ issuedId 5 := by
  refine ⟨by decide, ?_, by decide⟩
  have hname : Dialect.featureScenario.nameOfHeader "Scenario: test_NEWlogin" =
      "test_NEW" ++ "login" := by decide
  rw [hname]
  exact assignedName_freshToken .featureScenario 5 "login"

end TestCatalog.Proofs
