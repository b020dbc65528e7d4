import TestCatalog.Proofs.IssuedLines

/-!
# Runs over issued blocks

If the headers of the cases without identifier are issued in a block, then the assembler takes the
same cases from it, all of them with identifiers. One taken case is followed at a time: its body is
not issued, so that it is read below the issued header as it was below the fresh one.
-/

namespace TestCatalog.Proofs

/-- The name that a case takes when it is issued its number. -/
def issuedName (d : Dialect) (number : Text → ℕ) (name : Text) : Text :=
  d.assignedName name (issuedId (number name))

/-! ## Issued cases -/

/-- The case with the name and the identifier that it is issued. -/
def issuedCase (d : Dialect) (number : Text → ℕ) (case : TestCase) : TestCase :=
  { case with
    name := issuedName d number case.name
    globalId := issuedId (number case.name) }

def renamedWarning (name : Text) : AssemblyWarning → AssemblyWarning
  | .onlyDefaultProject _ project => .onlyDefaultProject name project

namespace Taken

/-- The case as it is taken once all cases have identifiers. -/
def issued (d : Dialect) (number : Text → ℕ) (taken : Taken) : Taken :=
  match taken.kind with
  | .add =>
    { above := taken.above
      kind := .update
      case := issuedCase d number taken.case
      warning := taken.warning.map (renamedWarning (issuedName d number taken.case.name)) }
  | .update => taken

lemma kind_issued (d : Dialect) (number : Text → ℕ) (taken : Taken) :
    (taken.issued d number).kind = .update := by
  unfold issued
  split <;> trivial

end Taken

lemma warning?_renamed (config : SyncConfig) (d : Dialect) (name name' : Text)
    (projects : List Text) : Projects.warning? config d name' projects =
      (Projects.warning? config d name projects).map (renamedWarning name') := by
  unfold Projects.warning?
  split_ifs <;> rfl

variable {a : Assembler} {number : Text → ℕ}

/-! ## One case -/

lemma le_above {c : Cursor} {run : List Taken} (h : Run a c run) :
    ∀ taken ∈ run, c.lineNumber ≤ taken.above := by
  induction h with
  | done n => simp
  | skip hkind below ih =>
    intro taken htaken
    have hle := ih taken htaken
    exact (Nat.le_succ _).trans hle
  | @take n line rest kind body c run hkind hbody below ih =>
    obtain ⟨x, y, rfl, rfl⟩ := hbody.exists_lines (steady_readBody _ _ _ _).forward
    intro taken htaken
    rcases List.mem_cons.mp htaken with rfl | htaken
    · exact Nat.le_refl n
    · have hle : n + 1 + x.length ≤ taken.above := ih taken htaken
      show n ≤ taken.above
      omega

lemma kindOfHeader?_issued (hmode : a.mode = .both) {n m : ℕ} {line line' : Text}
    (h : Issued a.dialect n m line line') : a.kindOfHeader? (Text.trim line') = some .update :=
  kindOfHeader?_eq_some (by rw [hmode]; rfl) h.startsWith_update

/-- A case is taken below its issued header with the identifier in its name. -/
theorem take_issued {line line' : Text} {c c' : Cursor} {body : CaseBody} {rest : Text}
    (hname : a.dialect.nameOfHeader (Text.trim line) = freshMark a.dialect ++ rest)
    (hissued : Issued a.dialect (number (freshMark a.dialect ++ rest))
      (freshMark a.dialect ++ rest).length line line')
    (hbody : Yields (bodyBelow a (Text.trim line)) c body c') :
    ∃ body', Yields (bodyBelow a (Text.trim line')) c body' c' ∧
      takenCase a .update (Text.trim line') body' =
        issuedCase a.dialect number (takenCase a .add (Text.trim line) body) ∧
      body'.warning = body.warning.map
        (renamedWarning (issuedName a.dialect number (freshMark a.dialect ++ rest))) := by
  have hname' := hissued.nameOfHeader hname
  have hassigned := assignedName_fresh a.dialect (number (freshMark a.dialect ++ rest)) rest
  have hid := idOfName_issued a.dialect (number (freshMark a.dialect ++ rest)) rest
  have hopening := follows_expectOpening hissued.trim.respelled
    (a.dialect.nameOfHeader (Text.trim line)) (a.dialect.nameOfHeader (Text.trim line'))
  refine ⟨_, yields_body_other hopening hbody, ?_, ?_⟩
  · unfold takenCase issuedCase issuedName
    simp only [hname, hname', CaseBody.toCase, Assembler.globalId, hassigned, hid]
  · have hwarning := warning_of_yields_body hbody
    rw [hwarning, hname', issuedName, hassigned]
    exact warning?_renamed _ _ _ _ _

/-! ## Whole runs -/

/-- Below `k` lines of the block stands the header of a case of that name without identifier. -/
def DueHeader (run : List Taken) (k : ℕ) (name : Text) : Prop :=
  ∃ taken ∈ run, taken.kind = .add ∧ taken.above = k ∧ taken.case.name = name

lemma dueHeader_cons {taken : Taken} {run : List Taken} {k : ℕ} {name : Text} :
    DueHeader (taken :: run) k name ↔
      (taken.kind = .add ∧ taken.above = k ∧ taken.case.name = name) ∨ DueHeader run k name := by
  simp [DueHeader]

lemma le_of_dueHeader {c : Cursor} {run : List Taken} (h : Run a c run) {k : ℕ} {name : Text}
    (hdue : DueHeader run k name) : c.lineNumber ≤ k := by
  obtain ⟨taken, htaken, -, rfl, -⟩ := hdue
  exact le_above h taken htaken

/-- At the header of a case, no other case is due. -/
lemma dueHeader_head_iff (taken : Taken) {c : Cursor} {run : List Taken} (below : Run a c run)
    (hlt : taken.above < c.lineNumber) {name : Text} :
    DueHeader (taken :: run) taken.above name ↔ taken.kind = .add ∧ taken.case.name = name := by
  rw [dueHeader_cons]
  constructor
  · rintro (⟨hadd, -, hname⟩ | hdue)
    · exact ⟨hadd, hname⟩
    · exact absurd (le_of_dueHeader below hdue) (Nat.not_le_of_lt hlt)
  · rintro ⟨hadd, hname⟩
    exact .inl ⟨hadd, rfl, hname⟩

/-- Below the header of a case, that case is no longer due. -/
lemma IssuedLines.below_head (taken : Taken) {run : List Taken} {ls ls' : List Text}
    (h : IssuedLines a.dialect number (DueHeader (taken :: run)) (taken.above + 1) ls ls') :
    IssuedLines a.dialect number (DueHeader run) (taken.above + 1) ls ls' := by
  refine h.congr fun k name hk _ => ?_
  rw [dueHeader_cons, or_iff_right]
  rintro ⟨-, habove, -⟩
  omega

/-- No header stands among the lines of a body, so that these are kept. -/
lemma IssuedLines.keep_body {n : ℕ} {x y ls' : List Text} {run : List Taken}
    (below : Run a ⟨n + x.length, y⟩ run)
    (h : IssuedLines a.dialect number (DueHeader run) n (x ++ y) ls') :
    ∃ y', ls' = x ++ y' ∧ IssuedLines a.dialect number (DueHeader run) (n + x.length) y y' := by
  obtain ⟨x', y', rfl, hx, hy⟩ := h.split
  obtain rfl := hx.eq_of_not_due fun k name hk hk' hdue => by
    have hle : n + x.length ≤ k := le_of_dueHeader below hdue
    omega
  exact ⟨y', rfl, hy⟩

/-- Issuing the headers of the cases without identifier issues the cases of the run. -/
theorem run_issued (hmode : a.mode = .both) {c : Cursor} {run : List Taken} (h : Run a c run)
    (hfresh : ∀ taken ∈ run, taken.kind = .add → freshMark a.dialect <+: taken.case.name)
    {ls' : List Text}
    (hlines : IssuedLines a.dialect number (DueHeader run) c.lineNumber c.rest ls') :
    Run a ⟨c.lineNumber, ls'⟩ (run.map (Taken.issued a.dialect number)) := by
  induction h generalizing ls' with
  | done n =>
    cases hlines
    exact .done n
  | @skip n line rest run hkind below ih =>
    cases hlines with
    | keep hkeep hbelow => exact .skip hkind (ih hfresh hbelow)
    | issue hdue hline hbelow =>
      have hle : n + 1 ≤ n := le_of_dueHeader below hdue
      omega
  | @take n line rest kind body c run hkind hbody below ih =>
    obtain ⟨x, y, rfl, rfl⟩ := hbody.exists_lines (steady_readBody _ _ _ _).forward
    let taken : Taken := ⟨n, kind, takenCase a kind (Text.trim line) body, body.warning⟩
    have hhead (name : Text) : DueHeader (taken :: run) n name ↔
        kind = .add ∧ a.dialect.nameOfHeader (Text.trim line) = name :=
      dueHeader_head_iff taken below (Nat.lt_add_right x.length n.lt_succ_self)
    have hrun {ls' : List Text}
        (hlines : IssuedLines a.dialect number (DueHeader (taken :: run)) (n + 1) (x ++ y) ls') :
        ∃ y', ls' = x ++ y' ∧
          Run a ⟨n + 1 + x.length, y'⟩ (run.map (Taken.issued a.dialect number)) := by
      obtain ⟨y', rfl, hy⟩ := (hlines.below_head taken).keep_body below
      exact ⟨y', rfl, ih (fun taken htaken => hfresh taken (List.mem_cons_of_mem _ htaken)) hy⟩
    cases hlines with
    | keep hkeep hlines =>
      obtain ⟨y', rfl, hy⟩ := hrun hlines
      cases kind with
      | add => exact absurd ((hhead _).mpr ⟨rfl, rfl⟩) (hkeep _)
      | update => exact .take hkind (yields_body_elsewhere hbody (n + 1) y') hy
    | issue hdue hline hlines =>
      obtain ⟨y', rfl, hy⟩ := hrun hlines
      obtain ⟨rfl, rfl⟩ := (hhead _).mp hdue
      obtain ⟨rest, hrest⟩ := hfresh taken List.mem_cons_self rfl
      have hrest : freshMark a.dialect ++ rest = a.dialect.nameOfHeader (Text.trim line) := hrest
      rw [← hrest] at hline
      obtain ⟨body', hbody', hcase, hwarning⟩ :=
        take_issued hrest.symm hline (yields_body_elsewhere hbody (n + 1) y')
      have htake := Run.take (kindOfHeader?_issued hmode hline) hbody' hy
      rw [hcase, hwarning, hrest] at htake
      exact htake

end TestCatalog.Proofs
