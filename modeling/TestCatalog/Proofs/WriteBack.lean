import TestCatalog.Proofs.Acceptance
import TestCatalog.Proofs.InjectedNames

/-!
# Names written back

When the cases of a source are issued identifiers, their new names are injected into the source. The
source then reads back as the same cases, all of them with identifiers, as long as no line above the
header of a case declares the name of the case.
-/

namespace TestCatalog.Proofs

/-- The first source line that declares the name of the case is the line on which its header
begins; lines that hold nothing but the backslashes that continue them do not count. -/
def Taken.NamedFirst (d : Dialect) (source : Text) (taken : Taken) : Prop :=
  ∃ line, firstDeclaring? d source taken.case.name = some line ∧
    (rowStarts d (Text.lines source))[taken.above]? = some line

def addedNames (run : List Taken) : List Text :=
  (run.filter fun taken => taken.kind = .add).map fun taken => taken.case.name

/-- The case with an identifier: the one that it has, or the one that it is issued. -/
def Taken.updatedCase (d : Dialect) (number : Text → ℕ) (taken : Taken) : TestCase :=
  match taken.kind with
  | .add => issuedCase d number taken.case
  | .update => taken.case

variable {a : Assembler} {number : Text → ℕ} {source block : Text} {run : List Taken}

/-! ## Headers of a run -/

lemma mem_addedNames {name : Text} :
    name ∈ addedNames run ↔ ∃ taken ∈ run, taken.kind = .add ∧ taken.case.name = name := by
  simp [addedNames, and_assoc]

lemma exists_header {c : Cursor} (h : Run a c run) {taken : Taken} (htaken : taken ∈ run) :
    ∃ line, c.rest[taken.above - c.lineNumber]? = some line ∧
      a.kindOfHeader? (Text.trim line) = some taken.kind := by
  induction h with
  | done n => cases htaken
  | @skip n line rest run hkind below ih =>
    obtain ⟨line', hline', hkind'⟩ := ih htaken
    have hle : n + 1 ≤ taken.above := le_above below taken htaken
    have hnumber : taken.above - n = taken.above - (n + 1) + 1 := by omega
    refine ⟨line', ?_, hkind'⟩
    show (line :: rest)[taken.above - n]? = some line'
    rw [hnumber, List.getElem?_cons_succ]
    exact hline'
  | @take n line rest kind body c run hkind hbody below ih =>
    rcases List.mem_cons.mp htaken with rfl | htaken
    · refine ⟨line, ?_, hkind⟩
      show (line :: rest)[n - n]? = some line
      rw [Nat.sub_self, List.getElem?_cons_zero]
    · obtain ⟨line', hline', hkind'⟩ := ih htaken
      obtain ⟨x, y, rfl, rfl⟩ := hbody.exists_lines (steady_readBody _ _ _ _).forward
      have hle : n + 1 + x.length ≤ taken.above := le_above below taken htaken
      have hindex : taken.above - n = x.length + (taken.above - (n + 1 + x.length)) + 1 := by omega
      refine ⟨line', ?_, hkind'⟩
      show (line :: (x ++ y))[taken.above - n]? = some line'
      rw [hindex, List.getElem?_cons_succ,
        List.getElem?_append_right (Nat.le_add_right _ _), Nat.add_sub_cancel_left]
      exact hline'

lemma exists_row (hblock : a.dialect.filter source = .ok block)
    (hrun : Run a (Cursor.ofText block) run) {taken : Taken} (htaken : taken ∈ run) :
    ∃ row, (blockRows a.dialect (sourceLines source))[taken.above]? = some row ∧
      a.kindOfHeader? (Text.trim row) = some taken.kind := by
  obtain ⟨line, hline, hkind⟩ := exists_header hrun htaken
  obtain ⟨row, hrow, rfl⟩ := exists_row_of_line hblock hline
  rw [trim_trimEnd] at hkind
  exact ⟨row, hrow, hkind⟩

lemma pairwise_rowStarts (d : Dialect) (ls : List Text) : (rowStarts d ls).Pairwise (· < ·) := by
  cases d with
  | annotatedFunction => exact pairwise_startsFrom _ _
  | keywordTable => exact pairwise_startsFrom _ _
  | featureScenario => exact List.pairwise_lt_range

lemma rowStarts_injective {d : Dialect} {ls : List Text} {j k line : ℕ}
    (hj : (rowStarts d ls)[j]? = some line) (hk : (rowStarts d ls)[k]? = some line) : j = k := by
  have hnodup : (rowStarts d ls).Nodup := (pairwise_rowStarts d ls).imp Nat.ne_of_lt
  obtain ⟨hlt, -⟩ := List.getElem?_eq_some_iff.mp hj
  exact (List.getElem?_inj hlt hnodup).mp (hj.trans hk.symm)

/-! ## Names that are due -/

section Due

variable (hblock : a.dialect.filter source = .ok block) (hrun : Run a (Cursor.ofText block) run)
variable (hfresh : ∀ taken ∈ run, taken.kind = .add → freshMark a.dialect <+: taken.case.name)
variable (hfirst : ∀ taken ∈ run, taken.kind = .add → taken.NamedFirst a.dialect source)
include hfirst

lemma due_start {line : ℕ} {name : Text} (h : Due a.dialect source (addedNames run) line name) :
    ∃ taken ∈ run, taken.kind = .add ∧ taken.case.name = name ∧
      (rowStarts a.dialect (sourceLines source))[taken.above]? = some line := by
  obtain ⟨hmem, hline⟩ := h
  obtain ⟨taken, htaken, hadd, rfl⟩ := mem_addedNames.mp hmem
  obtain ⟨line', hline', hstart⟩ := hfirst taken htaken hadd
  rw [hline] at hline'
  cases hline'
  rw [sourceLines, rowStarts_content]
  exact ⟨taken, htaken, hadd, rfl, hstart⟩

include hblock hrun hfresh in
/-- A line on which a name is due is a header line. -/
lemma headLine_of_due {k : ℕ} {line name : Text}
    (hdue : Due a.dialect source (addedNames run) k name)
    (hline : (sourceLines source)[k]? = some line) : HeadLine a.dialect line name := by
  obtain ⟨taken, htaken, hadd, rfl, hstart⟩ := due_start hfirst hdue
  obtain ⟨row, hrow, hkind⟩ := exists_row hblock hrun htaken
  obtain ⟨rest, hrest⟩ := hfresh taken htaken hadd
  have hheader := (startsWith_of_kindOfHeader? hkind).2
  rw [hadd] at hheader
  have hname : a.dialect.nameOnLine? line = some (freshMark a.dialect ++ rest) := by
    obtain ⟨hlt, hdeclares, -⟩ := List.findIdx?_eq_some_iff_getElem.mp hdue.2
    obtain ⟨_, hget⟩ := List.getElem?_eq_some_iff.mp hline
    rw [hget] at hdeclares
    rw [hrest]
    simpa using hdeclares
  obtain ⟨l, z, hl, hshape⟩ := exists_eq_of_start hstart hrow hheader hline hname
  rw [hrest] at hshape
  exact ⟨rest, l, z, hrest.symm, hl, hshape⟩

/-- A name is due on the line on which a line of the block begins if that is the header of its
case. -/
lemma due_iff_taken {k : ℕ} {name : Text} :
    (∃ j, (rowStarts a.dialect (sourceLines source))[k]? = some j ∧
      Due a.dialect source (addedNames run) j name) ↔ DueHeader run k name := by
  constructor
  · rintro ⟨j, hstart, hdue⟩
    obtain ⟨taken, htaken, hadd, hname, hstart'⟩ := due_start hfirst hdue
    exact ⟨taken, htaken, hadd, rowStarts_injective hstart' hstart, hname⟩
  · rintro ⟨taken, htaken, hadd, rfl, rfl⟩
    obtain ⟨line, hline, hstart⟩ := hfirst taken htaken hadd
    rw [sourceLines, rowStarts_content]
    exact ⟨line, hstart, mem_addedNames.mpr ⟨taken, htaken, hadd, rfl⟩, hline⟩

end Due

/-! ## Written sources -/

lemma filter_of_issued {source' : Text} {Due : ℕ → Text → Prop}
    (hblock : a.dialect.filter source = .ok block)
    (hlines : IssuedLines a.dialect number Due 0 (pieces source) (pieces source')) :
    a.dialect.filter source' =
      .ok (Text.join "\n" (blockRows a.dialect (sourceLines source'))) := by
  obtain ⟨hcount, -⟩ := filter_eq_ok_iff.mp hblock
  refine filter_eq_ok_iff.mpr ⟨fun htable => ?_, rfl⟩
  have hrespelled := hlines.respelled_join
  rw [join_pieces, join_pieces, htable] at hrespelled
  rw [count_respelled (by decide) (by decide) hrespelled]
  exact hcount htable

/-- The block of a source is issued where the lines of the source are. -/
lemma issued_blockLines {d : Dialect} {source' : Text} {Due : ℕ → Text → Prop}
    (hlines : IssuedLines d number Due 0 (pieces source) (pieces source'))
    (hdue : ∀ j name, Due j name → j ∈ rowStarts d (sourceLines source)) :
    IssuedLines d number
      (fun k name => ∃ j, (rowStarts d (sourceLines source))[k]? = some j ∧ Due j name) 0
      (blockLines (Text.join "\n" (blockRows d (sourceLines source))))
      (blockLines (Text.join "\n" (blockRows d (sourceLines source')))) := by
  have hend (c : Char) (hc : Inert c) : (decide (c = '\n') || decide (c = '\r')) = false := by
    have hblank := hc.1
    have hfeed : c ≠ '\n' := by
      rintro rfl
      exact absurd hblank (by decide)
    have hreturn : c ≠ '\r' := by
      rintro rfl
      exact absurd hblank (by decide)
    simp [hfeed, hreturn]
  have hsource : IssuedLines d number Due 0 (sourceLines source) (sourceLines source') := by
    rw [sourceLines_eq, sourceLines_eq]
    exact hlines.dropEmptyLast.map fun _ _ _ _ h => h.dropEndWhile hend
  rw [blockLines_join_rows, blockLines_join_rows]
  exact (hsource.blockRows hdue).dropEmptyLast.map fun _ _ _ _ h => h.dropEndWhile fun _ hc => hc.1

lemma concat_updates {run : List Taken} (h : ∀ taken ∈ run, taken.kind = .update) :
    ParsedCases.concat (run.map Taken.parsed) =
      { added := [], updated := run.map Taken.case
        warnings := run.flatMap fun taken => taken.warning.toList } := by
  induction run with
  | nil => rfl
  | cons taken run ih =>
    have hkind := h taken List.mem_cons_self
    have hcons : ParsedCases.concat ((taken :: run).map Taken.parsed) =
        taken.parsed ++ ParsedCases.concat (run.map Taken.parsed) := rfl
    rw [hcons, ih fun taken' htaken' => h taken' (List.mem_cons_of_mem taken htaken'),
      Taken.parsed, hkind]
    rfl

lemma case_issued (d : Dialect) (taken : Taken) :
    (taken.issued d number).case = taken.updatedCase d number := by
  unfold Taken.issued Taken.updatedCase
  cases taken.kind <;> rfl

/-! ## A sample -/

def featureAssembler : Assembler :=
  ⟨teamConfig, .featureScenario, .both, "suite"⟩

def checkoutFeature : Text :=
  draftBlock .featureScenario [checkoutDraft]

def checkoutLines : List Text :=
  headerLine .featureScenario checkoutDraft.name ::
    ((checkoutDraft.bodyLines .featureScenario).map Text.trimEnd ++ [Dialect.tripleQuote])

def checkoutTaken (above : ℕ) : Taken :=
  ⟨above, .add, checkoutDraft.trimmed.case featureAssembler, none⟩

lemma checkoutDraft_laidOut : checkoutDraft.LaidOut .featureScenario :=
  { checkoutDraft_wellFormed with
    name := ⟨by decide, by decide⟩
    oneLine := by decide }

/-- The block of the sample has one case, whose header stands below any lines above it. -/
lemma run_checkout (above : ℕ) :
    Run featureAssembler ⟨above, checkoutLines⟩ [checkoutTaken above] := by
  have hmode (kind : CaseKind) : featureAssembler.mode.accepts kind = true := by cases kind <;> rfl
  have hkind := kindOfHeader?_draft (a := featureAssembler) hmode checkoutDraft_laidOut.name
  have hname := nameOfHeader_headerLine checkoutDraft_laidOut.name
  have hcheck : Projects.check teamConfig (Text.trim checkoutDraft.name)
      (checkoutDraft.projects.map Text.trim) = .ok () := rfl
  obtain ⟨m, hm⟩ := takes_body checkoutDraft_laidOut hcheck (above + 1) [Dialect.tripleQuote]
  rw [← hname] at hm
  have hquote : featureAssembler.kindOfHeader? (Text.trim Dialect.tripleQuote) = none := by decide
  have hrun := Run.take hkind hm (.skip hquote (.done (m + 1)))
  have hcase : takenCase featureAssembler .add
      (Text.trim (headerLine .featureScenario checkoutDraft.name))
      (checkoutDraft.body teamConfig .featureScenario) =
        checkoutDraft.trimmed.case featureAssembler :=
    takenCase_draft checkoutDraft_laidOut.name
  have htaken : checkoutTaken above = ⟨above, .add, takenCase featureAssembler .add
      (Text.trim (headerLine .featureScenario checkoutDraft.name))
      (checkoutDraft.body teamConfig .featureScenario), none⟩ := by
    rw [hcase, checkoutTaken]
  rw [htaken]
  exact hrun

def checkoutText : Text :=
  Text.join "\n" ((checkoutDraft.lines .featureScenario).map Text.trim)

lemma filter_checkoutFeature :
    Dialect.featureScenario.filter checkoutFeature = .ok checkoutText := by
  decide +kernel

lemma run_checkoutText : Run featureAssembler (Cursor.ofText checkoutText) [checkoutTaken 0] := by
  have hlines : blockLines checkoutText = checkoutLines := by decide +kernel
  rw [ofText_eq, hlines]
  exact run_checkout 0

/-- The sample below a comment that mentions a scenario. -/
def commentedFeature (name : Text) : Text :=
  "# Scenario: " ++ name ++ '\n' :: checkoutFeature

def commentedText (name : Text) : Text :=
  "# Scenario: " ++ name ++ '\n' :: checkoutText

lemma run_commentedText {name : Text}
    (hlines : blockLines (commentedText name) = ("# Scenario: " ++ name) :: checkoutLines)
    (hkind : featureAssembler.kindOfHeader? (Text.trim ("# Scenario: " ++ name)) = none) :
    Run featureAssembler (Cursor.ofText (commentedText name)) [checkoutTaken 1] := by
  rw [ofText_eq, hlines]
  exact .skip hkind (run_checkout 1)

/-! ## Write-back -/

/-- Write-back, then re-reading: when the renames of all cases without identifier are injected into
their source, none is left, and the source reads back as all of its cases in the order of their
headers, each with an identifier and with the contents, projects and folder that it had. -/
theorem assemble_inject (number : Text → ℕ) {path key : Text} (hmode : a.mode = .both)
    (hblock : a.dialect.filter source = .ok block) (hrun : Run a (Cursor.ofText block) run)
    (hfresh : ∀ taken ∈ run, taken.kind = .add → freshMark a.dialect <+: taken.case.name)
    (hfirst : ∀ taken ∈ run, taken.kind = .add → taken.NamedFirst a.dialect source)
    (hkey : Text.contains key path = true) :
    let renames := issuedRenames a.dialect number key (addedNames run)
    let written := (a.dialect.inject path source renames).value
    written.2.isEmpty = true ∧ ∃ block', a.dialect.filter written.1 = .ok block' ∧
      (a.assemble block').value = .ok
        { added := []
          updated := run.map (Taken.updatedCase a.dialect number)
          warnings := run.flatMap fun taken => (taken.issued a.dialect number).warning.toList } := by
  intro renames written
  obtain ⟨left, hleft, hpending, hpieces⟩ :=
    inject_issuedRenames number hkey fun k line name hdue hline =>
      headLine_of_due hblock hrun hfresh hfirst hdue hline
  have hempty : left = {} := by
    refine eq_empty_of_get? fun name => Option.eq_none_iff_forall_ne_some.mpr fun new hnew => ?_
    obtain ⟨⟨hname, hnone⟩, -⟩ := (hpending name new).mp hnew
    obtain ⟨taken, htaken, hadd, rfl⟩ := mem_addedNames.mp hname
    obtain ⟨line, hline, -⟩ := hfirst taken htaken hadd
    obtain ⟨hlt, hdeclares, -⟩ := List.findIdx?_eq_some_iff_getElem.mp hline
    exact hnone _ (List.getElem_mem hlt) (by simpa using hdeclares)
  have hblock' := filter_of_issued hblock hpieces
  refine ⟨?_, _, hblock', ?_⟩
  · rw [hleft, hempty]
    rfl
  rw [ofText_eq] at hrun
  have hlines := issued_blockLines hpieces fun j name hdue => by
    obtain ⟨taken, -, -, -, hstart⟩ := due_start hfirst hdue
    exact List.mem_of_getElem? hstart
  obtain ⟨-, rfl⟩ := filter_eq_ok_iff.mp hblock
  have hissued := run_issued hmode hrun hfresh (hlines.congr fun k name _ _ => due_iff_taken hfirst)
  refine assemble_eq_ok_iff.mpr ⟨_, hissued, ?_⟩
  have hkinds : ∀ taken ∈ run.map (Taken.issued a.dialect number), taken.kind = .update := by
    intro taken htaken
    obtain ⟨taken', -, rfl⟩ := List.mem_map.mp htaken
    exact taken'.kind_issued a.dialect number
  have hcases : (run.map (Taken.issued a.dialect number)).map Taken.case =
      run.map (Taken.updatedCase a.dialect number) := by
    rw [List.map_map]
    exact List.map_congr_left fun taken _ => case_issued a.dialect taken
  rw [concat_updates hkinds, hcases, List.flatMap_map]

theorem assemble_inject_checkout :
    Dialect.featureScenario.filter checkoutFeature = .ok checkoutText ∧
      Run featureAssembler (Cursor.ofText checkoutText) [checkoutTaken 0] ∧
      (checkoutTaken 0).NamedFirst .featureScenario checkoutFeature ∧
      let renames := issuedRenames .featureScenario (fun _ => 7) "suite" ["test_NEW_checkout"]
      let written :=
        (Dialect.featureScenario.inject "suite/cart.feature" checkoutFeature renames).value
      written.2.isEmpty = true ∧ ∃ block', Dialect.featureScenario.filter written.1 = .ok block' ∧
        (featureAssembler.assemble block').value = .ok
          { added := []
            updated := [issuedCase .featureScenario (fun _ => 7) (checkoutTaken 0).case]
            warnings := [] } := by
  have hfirst : (checkoutTaken 0).NamedFirst .featureScenario checkoutFeature :=
    ⟨0, by decide +kernel, by decide +kernel⟩
  refine ⟨filter_checkoutFeature, run_checkoutText, hfirst, ?_⟩
  have hnames : addedNames [checkoutTaken 0] = [("test_NEW_checkout" : Text)] := by decide +kernel
  have hinject := assemble_inject (fun _ => 7) rfl filter_checkoutFeature run_checkoutText
    (fun taken htaken _ => by rw [List.mem_singleton.mp htaken]; decide)
    (fun taken htaken _ => by rw [List.mem_singleton.mp htaken]; exact hfirst)
    (show Text.contains "suite" "suite/cart.feature" = true by decide)
  rw [hnames] at hinject
  exact hinject

/-- A comment above the header that declares its name takes the new name instead: the rename is done
and the case still has no identifier. -/
theorem assemble_inject_commented :
    Dialect.featureScenario.filter (commentedFeature "test_NEW_checkout") =
        .ok (commentedText "test_NEW_checkout") ∧
      (featureAssembler.assemble (commentedText "test_NEW_checkout")).value =
        .ok { added := [(checkoutTaken 1).case] } ∧
      let renames := issuedRenames .featureScenario (fun _ => 7) "suite" ["test_NEW_checkout"]
      let written := (Dialect.featureScenario.inject "suite/cart.feature"
        (commentedFeature "test_NEW_checkout") renames).value
      written.2.isEmpty = true ∧ ∃ block', Dialect.featureScenario.filter written.1 = .ok block' ∧
        (featureAssembler.assemble block').value = .ok { added := [(checkoutTaken 1).case] } := by
  have hassemble (name : Text)
      (hlines : blockLines (commentedText name) = ("# Scenario: " ++ name) :: checkoutLines)
      (hkind : featureAssembler.kindOfHeader? (Text.trim ("# Scenario: " ++ name)) = none) :
      (featureAssembler.assemble (commentedText name)).value =
        .ok { added := [(checkoutTaken 1).case] } :=
    assemble_eq_ok_iff.mpr ⟨_, run_commentedText hlines hkind, rfl⟩
  have hinject : (Dialect.featureScenario.inject "suite/cart.feature"
      (commentedFeature "test_NEW_checkout")
      (issuedRenames .featureScenario (fun _ => 7) "suite" ["test_NEW_checkout"])).value =
        (commentedFeature "test_gid_7_checkout", {}) := by
    decide +kernel
  refine ⟨by decide +kernel, hassemble _ (by decide +kernel) (by decide), ?_⟩
  intro renames written
  have hwritten : written = (commentedFeature "test_gid_7_checkout", {}) := hinject
  rw [hwritten]
  refine ⟨rfl, commentedText "test_gid_7_checkout", by decide +kernel, ?_⟩
  exact hassemble _ (by decide +kernel) (by decide)

end TestCatalog.Proofs
