import TestCatalog.Proofs.Headers
import TestCatalog.Proofs.Locality

/-!
# Runs of the assembler

A `Run` is the list of the cases that the assembler takes from a cursor to the end of the block, in
the order of their headers. Assembling succeeds exactly when there is a run, and its cases are the
cases of the run.
-/

namespace TestCatalog.Proofs

/-! ## Bodies -/

theorem yields_readProjects_iff {config : SyncConfig} {d : Dialect} {case : Text} {c c' : Cursor}
    {listed : List Text × Option AssemblyWarning} :
    Yields (Projects.read config d case) c listed c' ↔
      ∃ scope, Text.stripStart? Projects.mark (Text.trim c.nextOrBlank.1) = some scope ∧
        Projects.check config case (Projects.listed scope) = .ok () ∧
        listed = (Projects.listed scope,
          Projects.warning? config d case (Projects.listed scope)) ∧
        c' = c.nextOrBlank.2 := by
  unfold Projects.read
  simp only [yields_bind_iff, yields_require_iff, yields_noteAll_iff, yields_lift_iff,
    yields_pure_iff]
  constructor
  · rintro ⟨line, c₁, ⟨hline, rfl⟩, scope, _, ⟨hscope, rfl⟩, _, _, rfl, _, _, ⟨hcheck, rfl⟩, rfl, rfl⟩
    obtain rfl : Text.trim c.nextOrBlank.1 = line := by simpa [Reader.nextTrimmed] using hline
    exact ⟨scope, hscope, hcheck, rfl, rfl⟩
  · rintro ⟨scope, hscope, hcheck, rfl, rfl⟩
    exact ⟨_, _, ⟨rfl, rfl⟩, scope, _, ⟨hscope, rfl⟩, (), _, rfl, (), _, ⟨hcheck, rfl⟩, rfl, rfl⟩

lemma readProjects_of_error {config : SyncConfig} {d : Dialect} {case scope : Text} {c : Cursor}
    {e : GrammarError}
    (hscope : Text.stripStart? Projects.mark (Text.trim c.nextOrBlank.1) = some scope)
    (hcheck : Projects.check config case (Projects.listed scope) = .error e) :
    (Projects.read config d case c).result = .error e := by
  have hline : Yields Reader.nextTrimmed c (Text.trim c.nextOrBlank.1) c.nextOrBlank.2 := ⟨rfl, rfl⟩
  rw [Projects.read, result_bind_of_yields hline,
    result_bind_of_yields (yields_require_iff.mpr ⟨hscope, rfl⟩),
    result_bind_of_yields (yields_noteAll _ _), hcheck]
  exact (bind_of_error _ rfl).1

/-- A body is its parts, read one after the other. -/
theorem yields_readBody_iff {config : SyncConfig} {d : Dialect} {header name : Text}
    {c c' : Cursor} {body : CaseBody} :
    Yields (CaseBody.read config d header name) c body c' ↔ ∃ c₁ c₂ c₃ c₄ c₅,
      Yields (d.expectOpening header name) c () c₁ ∧
      Yields (Section.description.read name) c₁ body.description c₂ ∧
      Yields (Section.prerequisites.read name) c₂ body.prerequisites c₃ ∧
      Yields (Section.testData.read name) c₃ body.testData c₄ ∧
      Yields (Steps.read name) c₄ body.steps c₅ ∧
      Yields (Projects.read config d name) c₅ (body.projects, body.warning) c' := by
  unfold CaseBody.read
  simp only [yields_bind_iff, yields_note_iff, yields_noteAll_iff, yields_pure_iff]
  constructor
  · rintro ⟨_, c₁, h₁, _, c₂, h₂, _, _, rfl, _, c₃, h₃, _, _, rfl, _, c₄, h₄, _, _, rfl, _, c₅, h₅,
      _, _, rfl, ⟨projects, warning⟩, c₆, h₆, _, _, rfl, rfl, rfl⟩
    exact ⟨c₁, c₂, c₃, c₄, c₅, h₁, h₂, h₃, h₄, h₅, h₆⟩
  · rintro ⟨c₁, c₂, c₃, c₄, c₅, h₁, h₂, h₃, h₄, h₅, h₆⟩
    exact ⟨(), c₁, h₁, _, c₂, h₂, (), c₂, rfl, _, c₃, h₃, (), c₃, rfl, _, c₄, h₄, (), c₄, rfl, _, c₅,
      h₅, (), c₅, rfl, _, c', h₆, (), c', rfl, rfl, rfl⟩

lemma warning_of_yields_body {config : SyncConfig} {d : Dialect} {header name : Text} {c c' : Cursor}
    {body : CaseBody} (h : Yields (CaseBody.read config d header name) c body c') :
    body.warning = Projects.warning? config d name body.projects := by
  obtain ⟨_, _, _, _, _, -, -, -, -, -, h⟩ := yields_readBody_iff.mp h
  obtain ⟨scope, -, -, hlisted, -⟩ := yields_readProjects_iff.mp h
  obtain ⟨hprojects, hwarning⟩ := Prod.mk.inj hlisted
  rw [hwarning, hprojects]

/-- The parts of a body that was read take its lines, one after the other: the last line, the
projects line, is not blank, so none of the readers came to the end of the block. -/
theorem exists_parts {config : SyncConfig} {d : Dialect} {header name : Text} {n k : ℕ}
    {x y : List Text} {body : CaseBody}
    (h : Yields (CaseBody.read config d header name) ⟨n, x ++ y⟩ body ⟨k, y⟩) :
    ∃ x₁ x₂ x₃ x₄ x₅ line, x = x₁ ++ (x₂ ++ (x₃ ++ (x₄ ++ (x₅ ++ [line])))) ∧
      Takes (d.expectOpening header name) x₁ () ∧
      Takes (Section.description.read name) x₂ body.description ∧
      Takes (Section.prerequisites.read name) x₃ body.prerequisites ∧
      Takes (Section.testData.read name) x₄ body.testData ∧
      Takes (Steps.read name) x₅ body.steps ∧
      Takes (Projects.read config d name) [line] (body.projects, body.warning) := by
  obtain ⟨c₁, c₂, c₃, c₄, c₅, h₁, h₂, h₃, h₄, h₅, h₆⟩ := yields_readBody_iff.mp h
  obtain ⟨x₁, l₁, hlines, rfl⟩ := h₁.exists_lines (steady_expectOpening d header name).forward
  obtain ⟨x₂, l₂, rfl, rfl⟩ := h₂.exists_lines (steady_readSection _ name).forward
  obtain ⟨x₃, l₃, rfl, rfl⟩ := h₃.exists_lines (steady_readSection _ name).forward
  obtain ⟨x₄, l₄, rfl, rfl⟩ := h₄.exists_lines (steady_readSection _ name).forward
  obtain ⟨x₅, l₅, rfl, rfl⟩ := h₅.exists_lines (steady_readSteps name).forward
  obtain ⟨scope, hscope, hcheck, hlisted, hend⟩ := yields_readProjects_iff.mp h₆
  obtain ⟨line, rfl⟩ : ∃ line, l₅ = line :: y := by
    cases l₅ with
    | nil =>
      have hblank : Text.stripStart? Projects.mark (Text.trim []) = none := rfl
      rw [nextOrBlank_nil, hblank] at hscope
      cases hscope
    | cons line rest => exact ⟨line, congrArg (line :: ·) (congrArg Cursor.rest hend).symm⟩
  rw [hlines] at h₁
  refine ⟨x₁, x₂, x₃, x₄, x₅, line, ?_, h₁.takes (steady_expectOpening d header name) (by simp),
    h₂.takes (steady_readSection _ name) (by simp), h₃.takes (steady_readSection _ name) (by simp),
    h₄.takes (steady_readSection _ name) (by simp), h₅.takes (steady_readSteps name) (by simp),
    fun m rest => ⟨m + 1, ?_⟩⟩
  · refine List.append_cancel_right (hlines.trans ?_)
    simp
  · exact yields_readProjects_iff.mpr ⟨scope, hscope, hcheck, hlisted, rfl⟩

/-- A body that was read takes the lines that it took, whatever follows them. -/
theorem takes_of_yields_body {config : SyncConfig} {d : Dialect} {header name : Text} {n k : ℕ}
    {x y : List Text} {body : CaseBody}
    (h : Yields (CaseBody.read config d header name) ⟨n, x ++ y⟩ body ⟨k, y⟩) :
    Takes (CaseBody.read config d header name) x body := by
  obtain ⟨x₁, x₂, x₃, x₄, x₅, line, rfl, h₁, h₂, h₃, h₄, h₅, h₆⟩ := exists_parts h
  intro m rest
  obtain ⟨k₁, hk₁⟩ := h₁ m _
  obtain ⟨k₂, hk₂⟩ := h₂ k₁ _
  obtain ⟨k₃, hk₃⟩ := h₃ k₂ _
  obtain ⟨k₄, hk₄⟩ := h₄ k₃ _
  obtain ⟨k₅, hk₅⟩ := h₅ k₄ _
  obtain ⟨k₆, hk₆⟩ := h₆ k₅ rest
  simp only [List.append_assoc]
  exact ⟨k₆, yields_readBody_iff.mpr ⟨_, _, _, _, _, hk₁, hk₂, hk₃, hk₄, hk₅, hk₆⟩⟩

/-- A body that was read at the end of a block is read at the end of every block, and takes as many
lines there. -/
lemma yields_body_elsewhere {config : SyncConfig} {d : Dialect} {header name : Text} {n k : ℕ}
    {x y : List Text} {body : CaseBody}
    (h : Yields (CaseBody.read config d header name) ⟨n, x ++ y⟩ body ⟨k, y⟩) (m : ℕ)
    (y' : List Text) :
    Yields (CaseBody.read config d header name) ⟨m, x ++ y'⟩ body ⟨m + x.length, y'⟩ :=
  (takes_of_yields_body h).yields (steady_readBody _ _ _ _).forward m y'

/-! ## Runs -/

/-- A case that was taken, and the number of lines of the block above its header. -/
structure Taken where
  above : ℕ
  kind : CaseKind
  case : TestCase
  warning : Option AssemblyWarning

def Taken.parsed (taken : Taken) : ParsedCases :=
  .single taken.kind taken.case taken.warning

def bodyBelow (a : Assembler) (header : Text) : Reader CaseBody :=
  CaseBody.read a.config a.dialect header (a.dialect.nameOfHeader header)

def takenCase (a : Assembler) (kind : CaseKind) (header : Text) (body : CaseBody) : TestCase :=
  let name := a.dialect.nameOfHeader header
  body.toCase a.config a.dialect name (a.globalId kind name) a.folder

/-- The cases that are taken from the cursor to the end of the block. -/
inductive Run (a : Assembler) : Cursor → List Taken → Prop where
  | done (n : ℕ) : Run a ⟨n, []⟩ []
  | skip {n : ℕ} {line : Text} {rest : List Text} {run : List Taken}
      (hkind : a.kindOfHeader? (Text.trim line) = none) (below : Run a ⟨n + 1, rest⟩ run) :
      Run a ⟨n, line :: rest⟩ run
  | take {n : ℕ} {line : Text} {rest : List Text} {kind : CaseKind} {body : CaseBody} {c : Cursor}
      {run : List Taken} (hkind : a.kindOfHeader? (Text.trim line) = some kind)
      (hbody : Yields (bodyBelow a (Text.trim line)) ⟨n + 1, rest⟩ body c)
      (below : Run a c run) :
      Run a ⟨n, line :: rest⟩
        (⟨n, kind, takenCase a kind (Text.trim line) body, body.warning⟩ :: run)

/-! ## Cases put together -/

lemma append_assoc (x y z : ParsedCases) : x ++ y ++ z = x ++ (y ++ z) := by
  show ParsedCases.mk (x.added ++ y.added ++ z.added) (x.updated ++ y.updated ++ z.updated)
    (x.warnings ++ y.warnings ++ z.warnings) = _
  rw [List.append_assoc, List.append_assoc, List.append_assoc]
  rfl

lemma append_concat_nil (x : ParsedCases) : x ++ .concat [] = x := by
  obtain ⟨added, updated, warnings⟩ := x
  show ParsedCases.mk (added ++ []) (updated ++ []) (warnings ++ []) = _
  rw [List.append_nil, List.append_nil, List.append_nil]

lemma map_concat_nil (r : Except GrammarError ParsedCases) : r.map (.concat [] ++ ·) = r := by
  cases r <;> rfl

lemma eq_error_of_map {f : ParsedCases → ParsedCases} {r : Except GrammarError ParsedCases}
    {e : GrammarError} (h : r.map f = .error e) : r = .error e := by
  cases r with
  | error e' => exact h
  | ok cases => cases h

lemma map_append_append (x y : ParsedCases) (r : Except GrammarError ParsedCases) :
    (r.map (y ++ ·)).map (x ++ ·) = r.map (x ++ y ++ ·) := by
  cases r with
  | error e => rfl
  | ok cases => exact congrArg Except.ok (append_assoc x y cases).symm

/-! ## Steps of the assembler -/

variable {a : Assembler}

lemma readCases_nil (n : ℕ) : (a.readCases ⟨n, []⟩).result = .ok {} := by
  rw [Assembler.readCases]

lemma readCases_below {n : ℕ} {line : Text} {rest : List Text}
    (hkind : a.kindOfHeader? (Text.trim line) = none) :
    a.readCases ⟨n, line :: rest⟩ = a.readCases ⟨n + 1, rest⟩ := by
  rw [Assembler.readCases]
  dsimp only
  rw [hkind]

lemma readCases_skip {n : ℕ} {line : Text} {rest : List Text}
    (hkind : a.kindOfHeader? (Text.trim line) = none) :
    (a.readCases ⟨n, line :: rest⟩).result = (a.readCases ⟨n + 1, rest⟩).result :=
  congrArg Reading.result (readCases_below hkind)

/-- A case that is read comes before those below it, and so does what its body reports. -/
lemma readCases_take {n : ℕ} {line : Text} {rest : List Text} {kind : CaseKind}
    {body : CaseBody} {c : Cursor} (hkind : a.kindOfHeader? (Text.trim line) = some kind)
    (hbody : Yields (bodyBelow a (Text.trim line)) ⟨n + 1, rest⟩ body c) :
    a.readCases ⟨n, line :: rest⟩ =
      { result := (a.readCases c).result.map
          (ParsedCases.single kind (takenCase a kind (Text.trim line) body) body.warning ++ ·)
        cursor := (a.readCases c).cursor
        journal := (bodyBelow a (Text.trim line) ⟨n + 1, rest⟩).journal ++
          .report (Assembler.assembled (takenCase a kind (Text.trim line) body)) ::
            (a.readCases c).journal } := by
  conv_lhs => rw [Assembler.readCases]
  dsimp only
  rw [hkind]
  dsimp only
  split
  · rename_i hr
    rw [← bodyBelow, hbody.eq] at hr
    cases hr
  · rename_i hr
    rw [← bodyBelow, hbody.eq] at hr
    cases hr
    rfl

lemma readCases_of_ok {n : ℕ} {line : Text} {rest : List Text} {kind : CaseKind}
    {body : CaseBody} {c : Cursor} (hkind : a.kindOfHeader? (Text.trim line) = some kind)
    (hbody : Yields (bodyBelow a (Text.trim line)) ⟨n + 1, rest⟩ body c) :
    (a.readCases ⟨n, line :: rest⟩).result = (a.readCases c).result.map
      (ParsedCases.single kind (takenCase a kind (Text.trim line) body) body.warning ++ ·) :=
  congrArg Reading.result (readCases_take hkind hbody)

/-- A body that is refused ends the block, and its error is reported at the line where it stopped. -/
lemma readCases_fail {n : ℕ} {line : Text} {rest : List Text} {kind : CaseKind}
    {e : GrammarError} (hkind : a.kindOfHeader? (Text.trim line) = some kind)
    (hbody : (bodyBelow a (Text.trim line) ⟨n + 1, rest⟩).result = .error e) :
    a.readCases ⟨n, line :: rest⟩ =
      let reading := bodyBelow a (Text.trim line) ⟨n + 1, rest⟩
      { result := .error e
        cursor := reading.cursor
        journal := reading.journal ++
          [.report (Assembler.failed (Text.trim line) e reading.cursor.lineNumber)] } := by
  rw [Assembler.readCases]
  dsimp only
  rw [hkind]
  dsimp only
  split
  · rename_i hr
    rw [bodyBelow, hr] at hbody ⊢
    cases hbody
    rfl
  · rename_i hr
    rw [bodyBelow, hr] at hbody
    cases hbody

lemma readCases_of_error {n : ℕ} {line : Text} {rest : List Text} {kind : CaseKind}
    {e : GrammarError} (hkind : a.kindOfHeader? (Text.trim line) = some kind)
    (hbody : (bodyBelow a (Text.trim line) ⟨n + 1, rest⟩).result = .error e) :
    (a.readCases ⟨n, line :: rest⟩).result = .error e :=
  congrArg Reading.result (readCases_fail hkind hbody)

/-- Induction along the cases of a block: a line that is no header is passed over, a body that is
refused ends the block, and one that is read takes a piece of the lines below its header. -/
@[elab_as_elim]
theorem readCases_induction (a : Assembler) {motive : Cursor → Prop} (nil : ∀ n, motive ⟨n, []⟩)
    (skip : ∀ n line rest, a.kindOfHeader? (Text.trim line) = none → motive ⟨n + 1, rest⟩ →
      motive ⟨n, line :: rest⟩)
    (fail : ∀ n line rest kind e, a.kindOfHeader? (Text.trim line) = some kind →
      (bodyBelow a (Text.trim line) ⟨n + 1, rest⟩).result = .error e → motive ⟨n, line :: rest⟩)
    (take : ∀ n line x y kind body, a.kindOfHeader? (Text.trim line) = some kind →
      Yields (bodyBelow a (Text.trim line)) ⟨n + 1, x ++ y⟩ body ⟨n + 1 + x.length, y⟩ →
      motive ⟨n + 1 + x.length, y⟩ → motive ⟨n, line :: (x ++ y)⟩) (c : Cursor) : motive c := by
  rcases c with ⟨n, ls⟩
  induction hlen : ls.length using Nat.strongRecOn generalizing n ls with
  | ind len ih =>
    subst hlen
    cases ls with
    | nil => exact nil n
    | cons line rest =>
      cases hkind : a.kindOfHeader? (Text.trim line) with
      | none => exact skip n line rest hkind (ih rest.length (Nat.lt_succ_self _) (n + 1) rest rfl)
      | some kind =>
        cases hresult : (bodyBelow a (Text.trim line) ⟨n + 1, rest⟩).result with
        | error e => exact fail n line rest kind e hkind hresult
        | ok body =>
          have hbody : Yields (bodyBelow a (Text.trim line)) ⟨n + 1, rest⟩ body _ := ⟨hresult, rfl⟩
          obtain ⟨x, y, rfl, hcursor⟩ := hbody.exists_lines (steady_readBody _ _ _ _).forward
          rw [hcursor] at hbody
          have hlt : y.length < (line :: (x ++ y)).length := by
            rw [List.length_cons, List.length_append]
            omega
          exact take n line x y kind body hkind hbody (ih y.length hlt (n + 1 + x.length) y rfl)

/-- What the assembler makes of the lines below a cursor does not depend on their numbers. -/
lemma readCases_renumber (n m : ℕ) (ls : List Text) :
    (a.readCases ⟨m, ls⟩).result = (a.readCases ⟨n, ls⟩).result := by
  suffices h : ∀ (c : Cursor) (m : ℕ),
      (a.readCases ⟨m, c.rest⟩).result = (a.readCases c).result from h ⟨n, ls⟩ m
  intro c
  induction c using readCases_induction a with
  | nil n => exact fun m => (readCases_nil m).trans (readCases_nil n).symm
  | skip n line rest hkind ih =>
    intro m
    rw [readCases_skip hkind, readCases_skip hkind]
    exact ih (m + 1)
  | fail n line rest kind e hkind hbody =>
    intro m
    have hsteady : Steady (bodyBelow a (Text.trim line)) := steady_readBody _ _ _ _
    have hbody' := (hsteady.renumber (n + 1) (m + 1) rest).1.trans hbody
    rw [readCases_of_error hkind hbody, readCases_of_error hkind hbody']
  | take n line x y kind body hkind hbody ih =>
    intro m
    have hbody' := yields_body_elsewhere hbody (m + 1) y
    rw [readCases_of_ok hkind hbody, readCases_of_ok hkind hbody', ih]

lemma readCases_blank (n : ℕ) (rest : List Text) :
    (a.readCases ⟨n, [] :: rest⟩).result = (a.readCases ⟨0, rest⟩).result := by
  rw [readCases_skip (kindOfHeader?_nil a)]
  exact readCases_renumber 0 (n + 1) rest

/-- Assembling succeeds exactly when there is a run, and yields the cases of the run. -/
theorem readCases_eq_ok_iff {c : Cursor} {cases : ParsedCases} :
    (a.readCases c).result = .ok cases ↔
      ∃ run, Run a c run ∧ cases = .concat (run.map Taken.parsed) := by
  constructor
  · intro h
    induction c using readCases_induction a generalizing cases with
    | nil n =>
      rw [readCases_nil] at h
      cases h
      exact ⟨[], .done n, rfl⟩
    | skip n line rest hkind ih =>
      rw [readCases_skip hkind] at h
      obtain ⟨run, hrun, rfl⟩ := ih h
      exact ⟨run, .skip hkind hrun, rfl⟩
    | fail n line rest kind e hkind hbody =>
      rw [readCases_of_error hkind hbody] at h
      cases h
    | take n line x y kind body hkind hbody ih =>
      rw [readCases_of_ok hkind hbody] at h
      cases hothers : (a.readCases ⟨n + 1 + x.length, y⟩).result with
      | error e =>
        rw [hothers] at h
        cases h
      | ok others =>
        rw [hothers] at h
        cases h
        obtain ⟨run, hrun, rfl⟩ := ih hothers
        exact ⟨_, .take hkind hbody hrun, rfl⟩
  · rintro ⟨run, hrun, rfl⟩
    induction hrun with
    | done n => exact readCases_nil n
    | skip hkind below ih => rw [readCases_skip hkind, ih]
    | take hkind hbody below ih =>
      rw [readCases_of_ok hkind hbody, ih]
      rfl

theorem assemble_eq_ok_iff {block : Text} {cases : ParsedCases} :
    (a.assemble block).value = .ok cases ↔
      ∃ run, Run a (Cursor.ofText block) run ∧ cases = .concat (run.map Taken.parsed) :=
  readCases_eq_ok_iff

end TestCatalog.Proofs
