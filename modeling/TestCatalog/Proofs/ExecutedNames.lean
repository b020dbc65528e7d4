import TestCatalog.Proofs.ModePartition
import TestCatalog.Proofs.RecoveredIds
import TestCatalog.Reconcile.Extract

/-!
# Executed names

A case with an identifier takes it from its name, and an execution that reports the name is asked
for the identifier again. Both cut it out of the name in the same way. But the mark of a keyword
table is one dash shorter than the start of an executed name, and no number is looked for behind
either: the two agree on a canonical identifier exactly where the name is numbered.
-/

namespace TestCatalog.Proofs

/-- A text of one or more digits. -/
def IsNumber (t : Text) : Prop :=
  t ≠ [] ∧ ∀ c ∈ t, c.isDigit = true

instance (t : Text) : Decidable (IsNumber t) :=
  inferInstanceAs (Decidable (_ ∧ _))

/-- An identifier of the form `GID-<n>`. -/
def IsCanonical (id : Text) : Prop :=
  ∃ number, IsNumber number ∧ id = "GID-" ++ number

/-- A name that starts as names with identifiers do and goes on with a number that ends there. -/
def IsNumbered (f : Framework) (name : Text) : Prop :=
  ∃ number rest, IsNumber number ∧ EndsToken f.dialect rest ∧ name = f.idStart ++ (number ++ rest)

/-! ## Cut identifiers -/

/-- What the mark on the name of a case with an identifier leaves in the identifier. -/
def idStem : Framework → Text
  | .pytest => "GID-"
  | .robot => "GID"

/-- What the start of an executed name has behind the mark. -/
def idGap : Framework → Text
  | .pytest => ""
  | .robot => "-"

lemma idStem_append_idGap (f : Framework) : idStem f ++ idGap f = "GID-" := by
  cases f <;> decide

lemma idStart_eq (f : Framework) : f.idStart = nameMark f.dialect .update ++ idGap f := by
  cases f <;> decide

lemma idOfName_mark (f : Framework) (t : Text) :
    f.dialect.idOfName (nameMark f.dialect .update ++ t) = idStem f ++ idTail f.dialect t := by
  cases f with
  | pytest =>
    have hname (name : Text) : Dialect.annotatedFunction.idOfName name =
        "GID-" ++ ((Text.stripStart? "test_gid_" name).getD name).takeWhile
          fun c => c ≠ '_' && !Text.isBlank c := rfl
    show Dialect.annotatedFunction.idOfName ("test_gid_" ++ t) = _
    rw [hname, stripStart?_append, Option.getD_some]
    rfl
  | robot =>
    have hname (name : Text) : Dialect.keywordTable.idOfName name =
        Text.trim (((Text.after? "TC-" name).getD name).takeWhile (· ≠ ':')) := rfl
    have hmark : ("TC-GID" : Text) ++ t = "TC-" ++ ("GID" ++ t) := rfl
    have hstem : ∀ c ∈ ("GID" : Text), (decide (c ≠ ':')) = true := by decide
    show Dialect.keywordTable.idOfName ("TC-GID" ++ t) = _
    rw [hname, hmark, after?_append, Option.getD_some, List.takeWhile_append_of_pos hstem,
      trim_append_of_bareEnds (by decide) (by decide)]
    rfl

lemma takeWhile_dropWhile_eq_nil (p : Char → Bool) (t : Text) :
    (t.dropWhile p).takeWhile p = [] := by
  have hhead := List.head?_dropWhile_not p t
  cases hrest : t.dropWhile p with
  | nil => rfl
  | cons c rest =>
    rw [hrest] at hhead
    exact List.takeWhile_cons_of_neg (by simpa using hhead)

/-- A text is cut where something ends the identifier. -/
lemma idTail_eq_iff {d : Dialect} {s t : Text}
    (hs : ∀ c ∈ s, Text.isBlank c = false ∧ c ≠ '_' ∧ c ≠ ':') :
    idTail d t = s ↔ ∃ rest, EndsToken d rest ∧ t = s ++ rest := by
  have hfunction : (t.takeWhile fun c => c ≠ '_' && !Text.isBlank c) = s ↔
      ∃ rest : Text, (rest.takeWhile fun c => c ≠ '_' && !Text.isBlank c) = [] ∧ t = s ++ rest := by
    constructor
    · rintro rfl
      exact ⟨_, takeWhile_dropWhile_eq_nil _ _, List.takeWhile_append_dropWhile.symm⟩
    · rintro ⟨rest, hrest, rfl⟩
      have hall : ∀ c ∈ s, (decide (c ≠ '_') && !Text.isBlank c) = true := by
        intro c hc
        simp [hs c hc]
      rw [List.takeWhile_append_of_pos hall, hrest, List.append_nil]
  simp only [← idTail_eq_nil_iff]
  cases d with
  | annotatedFunction => exact hfunction
  | keywordTable =>
    have hcolon {r : Text} (hr : ∀ c ∈ r, c ≠ ':') (rest : Text) :
        (r ++ rest).takeWhile (· ≠ ':') = r ++ rest.takeWhile (· ≠ ':') :=
      List.takeWhile_append_of_pos fun c hc => decide_eq_true (hr c hc)
    show Text.trimEnd _ = s ↔ ∃ rest : Text, Text.trimEnd _ = [] ∧ _
    constructor
    · rintro rfl
      obtain ⟨r, hr, hcut⟩ := exists_trimEnd (t.takeWhile (· ≠ ':'))
      have hr' : ∀ c ∈ r, c ≠ ':' := by
        rintro c hc rfl
        exact absurd (hr _ hc) (by decide)
      refine ⟨r ++ t.dropWhile (· ≠ ':'), ?_, ?_⟩
      · rwa [hcolon hr', takeWhile_dropWhile_eq_nil, List.append_nil, trimEnd_eq_nil_iff]
      · rw [← List.append_assoc, ← hcut, List.takeWhile_append_dropWhile]
    · rintro ⟨rest, hrest, rfl⟩
      rw [hcolon fun c hc => (hs c hc).2.2, trimEnd_append_right (trimEnd_eq_nil_iff.mp hrest)]
      exact trimEnd_eq_self fun c hc => (hs c (List.mem_of_getLast? hc)).1
  | featureScenario => exact hfunction

/-- The identifier of a name that starts with the mark is canonical where the name is numbered. -/
theorem isCanonical_idOfName_iff {f : Framework} {name : Text}
    (h : nameMark f.dialect .update <+: name) :
    IsCanonical (f.dialect.idOfName name) ↔ IsNumbered f name := by
  obtain ⟨t, rfl⟩ := h
  have hplain {number : Text} (hnumber : IsNumber number) :
      ∀ c ∈ idGap f ++ number, Text.isBlank c = false ∧ c ≠ '_' ∧ c ≠ ':' := by
    have hgap : ∀ c ∈ idGap f, Text.isBlank c = false ∧ c ≠ '_' ∧ c ≠ ':' := by
      cases f <;> decide
    intro c hc
    rcases List.mem_append.mp hc with hc | hc
    · exact hgap c hc
    · have hdigit := hnumber.2 c hc
      refine ⟨not_isBlank_of_isDigit hdigit, ?_, ?_⟩ <;>
      · rintro rfl
        exact absurd hdigit (by decide)
  have hcut (number : Text) : idStem f ++ idTail f.dialect t = "GID-" ++ number ↔
      idTail f.dialect t = idGap f ++ number := by
    rw [← idStem_append_idGap f, List.append_assoc, List.append_cancel_left_eq]
  have hname (number rest : Text) :
      nameMark f.dialect .update ++ t = f.idStart ++ (number ++ rest) ↔
        t = idGap f ++ number ++ rest := by
    rw [idStart_eq, List.append_assoc, List.append_cancel_left_eq, List.append_assoc]
  unfold IsCanonical IsNumbered
  simp only [idOfName_mark, hcut, hname]
  constructor
  · rintro ⟨number, hnumber, h⟩
    obtain ⟨rest, hrest, ht⟩ := (idTail_eq_iff (hplain hnumber)).mp h
    exact ⟨number, rest, hnumber, hrest, ht⟩
  · rintro ⟨number, rest, hnumber, hrest, ht⟩
    exact ⟨number, hnumber, (idTail_eq_iff (hplain hnumber)).mpr ⟨rest, hrest, ht⟩⟩

/-! ## Executed names -/

/-- One name that must carry an identifier: it does where it starts as executed names do. -/
lemma extract_single (f : Framework) (name : Text) : (f.extract false [name]).value =
    if Text.startsWith f.idStart name then .ok [f.dialect.idOfName name]
    else .error (.invalidNames f [name]) := by
  unfold Framework.extract Framework.idsOfNames Framework.idOfName?
  by_cases h : Text.startsWith f.idStart name = true
  · simp [h]
    rfl
  · simp [h]

lemma mem_updated {a : Assembler} {block : Text} {cases : ParsedCases}
    (h : (a.assemble block).value = .ok cases) {case : TestCase} (hcase : case ∈ cases.updated) :
    nameMark a.dialect .update <+: case.name ∧ case.globalId = a.dialect.idOfName case.name := by
  obtain ⟨ps, hps, rfl⟩ := assemble_eq_ok_iff_passages.mp h
  rw [concat_parsed] at hcase
  obtain ⟨p, hp, rfl⟩ := List.mem_map.mp hcase
  obtain ⟨hp, hkind⟩ := List.mem_filter.mp hp
  have hkind : p.kind = .update := of_decide_eq_true hkind
  refine ⟨hkind ▸ (hps.name_spec hp).1, ?_⟩
  show a.globalId p.kind (a.dialect.nameOfHeader p.header) = _
  rw [hkind]
  rfl

/-- An updated case has a canonical identifier exactly if its name is numbered, and then the
identifier is found again when the name is executed. It is found again whatever stands behind the
start of an executed name, and never without this start, which every updated function has. -/
theorem extract_updated {f : Framework} {a : Assembler} (hd : a.dialect = f.dialect) {block : Text}
    {cases : ParsedCases} (h : (a.assemble block).value = .ok cases) : ∀ case ∈ cases.updated,
      (IsCanonical case.globalId ↔ IsNumbered f case.name) ∧
      (IsCanonical case.globalId → (f.extract false [case.name]).value = .ok [case.globalId]) ∧
      (f.extract false [case.name]).value =
        (if Text.startsWith f.idStart case.name then .ok [case.globalId]
        else .error (.invalidNames f [case.name])) ∧
      (f = .pytest → Text.startsWith f.idStart case.name) := by
  intro case hcase
  obtain ⟨hmark, hid⟩ := mem_updated h hcase
  rw [hd] at hmark hid
  have hcanonical : IsCanonical case.globalId ↔ IsNumbered f case.name :=
    hid ▸ isCanonical_idOfName_iff hmark
  refine ⟨hcanonical, fun h => ?_, ?_, ?_⟩
  · obtain ⟨number, rest, -, -, hname⟩ := hcanonical.mp h
    have hstart : Text.startsWith f.idStart case.name = true :=
      startsWith_iff.mpr ⟨number ++ rest, hname.symm⟩
    rw [extract_single, if_pos hstart, hid]
  · rw [extract_single, hid]
  · rintro rfl
    exact startsWith_iff.mpr hmark

/-! ## Samples -/

lemma assemble_update {a : Assembler} {draft : Draft} (hmode : ∀ kind, a.mode.accepts kind)
    (h : draft.LaidOut a.dialect) (hcheck : Projects.check a.config (Text.trim draft.name)
      (draft.projects.map Text.trim) = .ok ()) (hkind : draft.trimmed.kind a.dialect = .update) :
    ∃ cases, (a.assemble (draftBlock a.dialect [draft])).value = .ok cases ∧
      draft.trimmed.case a ∈ cases.updated := by
  refine ⟨_, assemble_single hmode h hcheck, ?_⟩
  have hparsed : draft.trimmed.parsed a = .single .update (draft.trimmed.case a)
      (Projects.warning? a.config a.dialect draft.trimmed.name draft.trimmed.projects) := by
    rw [Draft.parsed, hkind]
  rw [hparsed]
  exact List.mem_cons_self

lemma accepts_both (kind : CaseKind) : SyncMode.both.accepts kind = true := by
  cases kind <;> rfl

theorem extract_updated_return :
    ∃ cases, ((orderAssembler .both).assemble (draftBlock .keywordTable [returnDraft])).value =
        .ok cases ∧ returnDraft.case (orderAssembler .both) ∈ cases.updated ∧
      (Framework.robot.extract false ["TC-GID-7: Return"]).value = .ok ["GID-7"] := by
  have hlaidOut : returnDraft.LaidOut .keywordTable := laidOut_orders _ (by simp)
  obtain ⟨cases, hcases, hmem⟩ :=
    assemble_update (a := orderAssembler .both) accepts_both hlaidOut rfl (by decide)
  refine ⟨cases, hcases, hmem, ?_⟩
  have hcanonical : IsCanonical "GID-7" := ⟨"7", by decide, by decide⟩
  exact (extract_updated (f := .robot) rfl hcases _ hmem).2.1 hcanonical

/-- A name whose mark is not followed by a dash. -/
def undashedDraft : Draft :=
  { orderDraft with name := "TC-GID42: Order" }

/-- A name whose mark is followed by a word. -/
def wordDraft : Draft :=
  { checkoutDraft with name := "test_gid_checkout" }

/-- The case of a keyword table is updated, though its identifier is not canonical and an execution
of the case is refused. The identifier of a function is not canonical either, where its name has no
number. -/
theorem extract_updated_undashed :
    (∃ cases, ((orderAssembler .both).assemble (draftBlock .keywordTable [undashedDraft])).value =
        .ok cases ∧ undashedDraft.case (orderAssembler .both) ∈ cases.updated) ∧
      (undashedDraft.case (orderAssembler .both)).globalId = "GID42" ∧ ¬ IsCanonical "GID42" ∧
      (Framework.robot.extract false [undashedDraft.name]).value =
        .error (.invalidNames .robot [undashedDraft.name]) ∧
    (∃ cases, (cartAssembler.assemble (draftBlock .annotatedFunction [wordDraft])).value =
        .ok cases ∧ wordDraft.case cartAssembler ∈ cases.updated) ∧
      (wordDraft.case cartAssembler).globalId = "GID-checkout" ∧ ¬ IsCanonical "GID-checkout" := by
  have hundashed : undashedDraft.LaidOut .keywordTable := by
    refine ⟨⟨by decide, by decide⟩, ?_, ?_, ?_, ?_, ?_, ?_, ?_, ?_⟩ <;> decide
  have hword : wordDraft.LaidOut .annotatedFunction :=
    { checkoutDraft_wellFormed.toLaidOut with
      name := ⟨by decide, by decide⟩
      oneLine := by decide }
  have hnumber {id number : Text} (h : id = "GID-" ++ number) (hdigit : ¬ IsNumber number) :
      ¬ IsCanonical id := by
    rintro ⟨number', hnumber, hid⟩
    rw [h] at hid
    exact hdigit (List.append_cancel_left hid ▸ hnumber)
  refine ⟨assemble_update (a := orderAssembler .both) accepts_both hundashed rfl (by decide),
    by decide, ?_, by rfl,
    assemble_update (a := cartAssembler) accepts_validation hword rfl (by decide), by decide,
    hnumber rfl (by decide)⟩
  rintro ⟨number, -, hid⟩
  cases hid

end TestCatalog.Proofs
