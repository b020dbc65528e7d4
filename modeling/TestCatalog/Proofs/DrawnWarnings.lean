import TestCatalog.Proofs.Composition
import TestCatalog.Proofs.Journals
import TestCatalog.Source.Extract

/-!
# Drawn warnings

The warnings that come with the cases of a block are reported while the block is read. They are
reported too when the block is read as the upper part of another one that fails further down.
-/

namespace TestCatalog.Proofs

/-! ## Bodies -/

lemma warningCount_readProjects {config : SyncConfig} {d : Dialect} {case : Text} {c c' : Cursor}
    {listed : List Text × Option AssemblyWarning}
    (h : Yields (Projects.read config d case) c listed c') :
    warningCount (Projects.read config d case c).journal = listed.2.toList.length := by
  obtain ⟨scope, hscope, hcheck, rfl, rfl⟩ := yields_readProjects_iff.mp h
  have hline : Yields Reader.nextTrimmed c (Text.trim c.nextOrBlank.1) c.nextOrBlank.2 := ⟨rfl, rfl⟩
  rw [Projects.read, journal_bind_of_yields hline,
    journal_bind_of_yields (yields_require_iff.mpr ⟨hscope, rfl⟩),
    journal_bind_of_yields (yields_noteAll _ _),
    journal_bind_of_yields (yields_lift_iff.mpr ⟨hcheck, rfl⟩)]
  simp only [warningCount_append, hscope]
  cases Projects.warning? config d case (Projects.listed scope) <;> rfl

/-- The warning of a body is reported when the body is read. -/
lemma length_warning_le {config : SyncConfig} {d : Dialect} {header name : Text} {c c' : Cursor}
    {body : CaseBody} (h : Yields (CaseBody.read config d header name) c body c') :
    body.warning.toList.length ≤ warningCount (CaseBody.read config d header name c).journal := by
  obtain ⟨c₁, c₂, c₃, c₄, c₅, h₁, h₂, h₃, h₄, h₅, h₆⟩ := yields_readBody_iff.mp h
  rw [← warningCount_readProjects h₆, CaseBody.read, journal_bind_of_yields h₁,
    journal_bind_of_yields h₂, journal_bind_of_yields (yields_note _ _),
    journal_bind_of_yields h₃, journal_bind_of_yields (yields_note _ _),
    journal_bind_of_yields h₄, journal_bind_of_yields (yields_note _ _),
    journal_bind_of_yields h₅, journal_bind_of_yields (yields_note _ _),
    journal_bind_of_yields h₆]
  simp only [warningCount_append]
  omega

/-! ## Blocks -/

variable {a : Assembler}

lemma length_warnings_single (kind : CaseKind) (case : TestCase) (warning : Option AssemblyWarning)
    (others : ParsedCases) : (ParsedCases.single kind case warning ++ others).warnings.length =
      warning.toList.length + others.warnings.length := by
  cases kind <;> exact List.length_append

lemma length_warnings_replicate (n : ℕ) (cases : ParsedCases) :
    (ParsedCases.concat (List.replicate n cases)).warnings.length = n * cases.warnings.length := by
  induction n with
  | zero => simp [ParsedCases.concat]
  | succ n ih =>
    have hcons : (ParsedCases.concat (List.replicate (n + 1) cases)).warnings =
        cases.warnings ++ (ParsedCases.concat (List.replicate n cases)).warnings := rfl
    rw [hcons, List.length_append, ih, Nat.succ_mul, Nat.add_comm]

/-- The warnings of a run are reported, whatever lines are added below it. -/
lemma length_warnings_le {c : Cursor} {run : List Taken} (h : Run a c run) (m : ℕ)
    (more : List Text) : (ParsedCases.concat (run.map Taken.parsed)).warnings.length ≤
      warningCount (a.readCases ⟨m, c.rest ++ more⟩).journal := by
  induction h generalizing m with
  | done n => exact Nat.zero_le _
  | skip hkind below ih =>
    rw [List.cons_append, readCases_below hkind]
    exact ih (m + 1)
  | @take n line rest kind body c run hkind hbody below ih =>
    obtain ⟨x, y, rfl, rfl⟩ := hbody.exists_lines (steady_readBody _ _ _ _).forward
    -- the body ends with its projects line, so that it takes the same lines before any others
    have hbody' := yields_body_elsewhere hbody (m + 1) (y ++ more)
    have hwarning : body.warning.toList.length ≤ _ := length_warning_le hbody'
    have hbelow := ih (m + 1 + x.length)
    have hparsed := length_warnings_single kind (takenCase a kind (Text.trim line) body)
      body.warning (.concat (run.map Taken.parsed))
    have hreport := warningCount_le_cons
      (.report (Assembler.assembled (takenCase a kind (Text.trim line) body)))
      (a.readCases ⟨m + 1 + x.length, y ++ more⟩).journal
    rw [List.cons_append, List.append_assoc, readCases_take hkind hbody', warningCount_append]
    refine hparsed.trans_le (Nat.add_le_add hwarning (hbelow.trans hreport))

/-- Lines that can be assembled report their warnings, whatever lines follow them; if a case fails
there, everything fails. -/
theorem readCases_append_of_error {ls more : List Text} {cases : ParsedCases} {e : GrammarError}
    (h : (a.readCases ⟨0, ls⟩).result = .ok cases)
    (herror : (a.readCases ⟨0, more⟩).result = .error e) :
    (a.readCases ⟨0, ls ++ more⟩).result = .error e ∧
      cases.warnings.length ≤ warningCount (a.readCases ⟨0, ls ++ more⟩).journal := by
  obtain ⟨run, hrun, rfl⟩ := readCases_eq_ok_iff.mp h
  refine ⟨?_, length_warnings_le hrun 0 more⟩
  rw [readCases_run_append hrun 0 more, herror]
  rfl

lemma warningCount_readCases_le (a : Assembler) (block : Text) :
    warningCount (a.readCases (.ofText block)).journal ≤ warningCount (a.assemble block).journal := by
  have hstarted := warningCount_le_cons (.report (a.started (.ofText block)))
    (a.readCases (.ofText block)).journal
  refine hstarted.trans ?_
  unfold Assembler.assemble
  rw [warningCount_append]
  exact Nat.le_add_right _ _

/-! ## Files -/

section Files

variable {x : Extractor} {tree : FileTree} {path : Path}

lemma read_of_text {r : FileReader} {source : Text}
    (htext : FileReader.inspect tree path = .ok (.text source))
    (hvalid : r.validate path (Text.utf8Size source) = .ok ())
    (hlines : (Text.lines source).length ≤ Limits.maxLines) :
    ∃ file, (r.read tree path).run.value = .ok file ∧ file.source = source := by
  have hshort := Nat.not_lt.mpr hlines
  unfold FileReader.read
  rw [run_lift_bind, run_bind_of_ok ((FileReader.value_checked _ _ _).trans htext)]
  dsimp only [Content.size, Content.text?]
  rw [run_bind_of_ok ((FileReader.value_checked _ _ _).trans hvalid),
    run_bind_of_ok (FileReader.value_checked _ _ _), if_neg hshort]
  cases r.reportReads
  · exact ⟨_, rfl, rfl⟩
  · exact ⟨_, rfl, rfl⟩

lemma run_of_block {file : SourceFile} {folder block : Text} {e : GrammarError}
    (hread : (x.reader.read tree path).run.value = .ok file)
    (hfolder : x.config.folderOf path = .ok folder)
    (hblock : x.dialect.filter file.source = .ok block)
    (herror : (Assembler.assemble ⟨x.config, x.dialect, x.mode, folder⟩ block).value = .error e) :
    (x.run tree path).run.value = .error (.grammar e) ∧
      warningCount (Assembler.assemble ⟨x.config, x.dialect, x.mode, folder⟩ block).journal ≤
        warningCount (x.run tree path).run.journal := by
  have hfile : (ExceptT.adapt ExtractionError.file (x.reader.read tree path)).run.value =
      .ok file := by
    rw [run_adapt, hread]
    rfl
  have hresolved : (x.config.resolveFolder path).run.value = .ok folder := by
    rw [SyncConfig.resolveFolder, hfolder]
    rfl
  have hfiltered : (x.filtered file.source).run.value = .ok block := by
    rw [Extractor.filtered, hblock]
    rfl
  have hassembled : (ExceptT.adapt ExtractionError.grammar (ExceptT.mk
      (Assembler.assemble ⟨x.config, x.dialect, x.mode, folder⟩ block))).run.value =
        .error (.grammar e) := by
    rw [run_adapt]
    exact congrArg (Except.mapError _) herror
  unfold Extractor.run
  rw [run_lift_bind, run_bind_of_ok hfile, run_bind_of_ok hresolved, run_bind_of_ok hfiltered,
    run_bind_of_error hassembled, run_adapt]
  refine ⟨rfl, ?_⟩
  simp only [warningCount_append]
  exact Nat.le_add_left _ _ |>.trans (Nat.le_add_left _ _) |>.trans (Nat.le_add_left _ _)
    |>.trans (Nat.le_add_left _ _)

/-- A file with a case that fails, fails, and it draws the warnings of the cases above that one. -/
theorem run_of_error {file : SourceFile} {folder block : Text} {ls more : List Text}
    {cases : ParsedCases} {e : GrammarError}
    (hread : (x.reader.read tree path).run.value = .ok file)
    (hfolder : x.config.folderOf path = .ok folder)
    (hblock : x.dialect.filter file.source = .ok block) (hlines : blockLines block = ls ++ more)
    (hcases : (Assembler.readCases ⟨x.config, x.dialect, x.mode, folder⟩ ⟨0, ls⟩).result = .ok cases)
    (herror : (Assembler.readCases ⟨x.config, x.dialect, x.mode, folder⟩ ⟨0, more⟩).result =
      .error e) :
    (x.run tree path).run.value = .error (.grammar e) ∧
      cases.warnings.length ≤ warningCount (x.run tree path).run.journal := by
  obtain ⟨hfails, hwarnings⟩ := readCases_append_of_error hcases herror
  rw [← hlines, ← ofText_eq] at hfails hwarnings
  obtain ⟨hvalue, hjournal⟩ := run_of_block hread hfolder hblock hfails
  exact ⟨hvalue, hwarnings.trans ((warningCount_readCases_le _ block).trans hjournal)⟩

end Files

end TestCatalog.Proofs
