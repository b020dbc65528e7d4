import TestCatalog.Proofs.OtherNames
import TestCatalog.Proofs.Replacement

/-!
# Issued names

A case that is issued an identifier takes a name that carries the identifier. If its header changes
where its name stands, and below the name in marks alone, then the header declares the new name, and
the opening of its documentation is read as before.
-/

namespace TestCatalog.Proofs

def issuedId (n : ℕ) : Text :=
  "GID-" ++ Text.ofNat n

/-- What is replaced in a name when an identifier is issued. -/
def freshToken : Dialect → Text
  | .annotatedFunction | .featureScenario => "test_NEW"
  | .keywordTable => "<NEW>"

/-- What takes its place. -/
def issuedToken : Dialect → (n : ℕ) → Text
  | .annotatedFunction, n | .featureScenario, n => "test_gid_" ++ Text.ofNat n
  | .keywordTable, n => "TC-" ++ issuedId n

/-- What the text behind the token adds to the identifier that is read back from a name. -/
def idTail : Dialect → (rest : Text) → Text
  | .annotatedFunction, rest | .featureScenario, rest =>
    rest.takeWhile fun c => c ≠ '_' && !Text.isBlank c
  | .keywordTable, rest => Text.trimEnd (rest.takeWhile (· ≠ ':'))

/-! ## Names that carry identifiers -/

section Names

lemma replaceFirst_append (old new t : Text) : Text.replaceFirst old new (old ++ t) = new ++ t := by
  unfold Text.replaceFirst
  rw [cut?_append_self]
  rfl

lemma lowerChar_of_isDigit {c : Char} (h : c.isDigit = true) : Text.lowerChar c = [c] := by
  have hle : c.toNat ≤ 57 := by
    rw [Char.isDigit, Bool.and_eq_true, decide_eq_true_eq, decide_eq_true_eq] at h
    exact UInt32.le_iff_toNat_le.mp h.2
  have hfirst : ∀ run ∈ Text.caseRuns, 57 < run.first := by decide +kernel
  have hfind : (Text.caseRuns.find? fun run => run.first ≤ c.toNat && c.toNat ≤ run.last &&
      (c.toNat - run.first) % run.stride == 0) = none := by
    refine List.find?_eq_none.mpr fun run hrun => ?_
    have hlt := hfirst run hrun
    have hnot : ¬ run.first ≤ c.toNat := by omega
    simp [hnot]
  have hne : c.toNat ≠ 0x130 := by omega
  unfold Text.lowerChar
  rw [if_neg hne, hfind]

lemma lowercase_digits {t : Text} (h : ∀ c ∈ t, c.isDigit = true) (before : Text) :
    Text.lowerAfter before t = t := by
  induction t generalizing before with
  | nil => rfl
  | cons c t ih =>
    have hc := h c List.mem_cons_self
    have hsigma : c ≠ 'Σ' := by
      rintro rfl
      exact absurd hc (by decide)
    rw [Text.lowerAfter, if_neg hsigma, lowerChar_of_isDigit hc,
      ih fun c' hc' => h c' (List.mem_cons_of_mem c hc')]
    rfl

lemma isDigit_ofNat (n : ℕ) : ∀ c ∈ Text.ofNat n, c.isDigit = true :=
  fun _ hc => isDigit_of_mem_ofNat hc

lemma lowercase_issuedId (n : ℕ) : Text.lowercase (issuedId n) = "gid-" ++ Text.ofNat n := by
  have hdigits := lowercase_digits (isDigit_ofNat n) ['-', 'D', 'I', 'G']
  have hlead : Text.lowerAfter [] ("GID-" ++ Text.ofNat n) =
      "gid-" ++ Text.lowerAfter ['-', 'D', 'I', 'G'] (Text.ofNat n) := rfl
  rw [Text.lowercase, issuedId, hlead, hdigits]

/-- An issued name has the issued token where the name had the fresh one. -/
theorem assignedName_freshToken (d : Dialect) (n : ℕ) (rest : Text) :
    d.assignedName (freshToken d ++ rest) (issuedId n) = issuedToken d n ++ rest := by
  have hdash (c : Char) (hc : c ∈ Text.ofNat n) : (if c = '-' then '_' else c) = c := by
    apply if_neg
    rintro rfl
    exact absurd (isDigit_of_mem_ofNat hc) (by decide)
  have htoken : (Text.lowercase (issuedId n)).map (fun c => if c = '-' then '_' else c) =
      "gid_" ++ Text.ofNat n := by
    rw [lowercase_issuedId, List.map_append, List.map_congr_left hdash, List.map_id']
    rfl
  have hfunction (d : Dialect) (hd : ∀ name, d.assignedName name (issuedId n) =
      Text.replaceFirst "test_NEW" ("test_" ++
        (Text.lowercase (issuedId n)).map fun c => if c = '-' then '_' else c) name) :
      d.assignedName ("test_NEW" ++ rest) (issuedId n) = "test_gid_" ++ Text.ofNat n ++ rest := by
    rw [hd, htoken, replaceFirst_append]
    rfl
  cases d with
  | annotatedFunction => exact hfunction _ fun _ => rfl
  | keywordTable => exact replaceFirst_append "<NEW>" ("TC-" ++ issuedId n) rest
  | featureScenario => exact hfunction _ fun _ => rfl

lemma freshMark_eq_token (d : Dialect) : freshMark d = freshToken d ++ [markEnd d] := by
  cases d <;> decide

lemma issuedMark_eq_token (d : Dialect) (n : ℕ) : issuedMark d n = issuedToken d n ++ [markEnd d] := by
  cases d <;> rfl

/-- The name of a case starts with an issued mark where it started with a fresh one. -/
theorem assignedName_fresh (d : Dialect) (n : ℕ) (rest : Text) :
    d.assignedName (freshMark d ++ rest) (issuedId n) = issuedMark d n ++ rest := by
  rw [freshMark_eq_token, issuedMark_eq_token, List.append_assoc, List.append_assoc,
    assignedName_freshToken]

lemma bareEnds_issuedId (n : ℕ) : BareEnds (issuedId n) := by
  have hlead : ∀ c ∈ ("GID-" : Text), Text.isBlank c = false := by decide
  have hbare (c : Char) (hc : c ∈ issuedId n) : Text.isBlank c = false := by
    rcases List.mem_append.mp hc with hc | hc
    · exact hlead c hc
    · exact not_isBlank_of_isDigit (isDigit_of_mem_ofNat hc)
  exact ⟨fun c hc => hbare c (List.mem_of_mem_head? hc),
    fun c hc => hbare c (List.mem_of_getLast? hc)⟩

/-- An issued name carries its identifier and what the text behind the token adds to it. -/
theorem idOfName_issuedToken (d : Dialect) (n : ℕ) (rest : Text) :
    d.idOfName (issuedToken d n ++ rest) = issuedId n ++ idTail d rest := by
  have hdigit (stop : Char) (hstop : stop.isDigit = false) (c : Char) (hc : c ∈ Text.ofNat n) :
      c ≠ stop := by
    rintro rfl
    rw [isDigit_of_mem_ofNat hc] at hstop
    cases hstop
  have hfunction (d : Dialect) (hd : ∀ name, d.idOfName name = "GID-" ++
      ((Text.stripStart? "test_gid_" name).getD name).takeWhile
        fun c => c ≠ '_' && !Text.isBlank c) :
      d.idOfName ("test_gid_" ++ Text.ofNat n ++ rest) =
        issuedId n ++ rest.takeWhile fun c => c ≠ '_' && !Text.isBlank c := by
    have hdigits : ∀ c ∈ Text.ofNat n, (decide (c ≠ '_') && !Text.isBlank c) = true := by
      intro c hc
      simp [hdigit '_' (by decide) c hc, not_isBlank_of_isDigit (isDigit_of_mem_ofNat hc)]
    rw [hd, List.append_assoc, stripStart?_append, Option.getD_some,
      List.takeWhile_append_of_pos hdigits, issuedId, List.append_assoc]
  cases d with
  | annotatedFunction => exact hfunction _ fun _ => rfl
  | keywordTable =>
    have hlead : ∀ c ∈ ("GID-" : Text), (decide (c ≠ ':')) = true := by decide
    have hcolon : ∀ c ∈ issuedId n, (decide (c ≠ ':')) = true := by
      intro c hc
      rcases List.mem_append.mp hc with hc | hc
      · exact hlead c hc
      · exact decide_eq_true (hdigit ':' (by decide) c hc)
    show Text.trim (((Text.after? "TC-" ("TC-" ++ issuedId n ++ rest)).getD _).takeWhile _) = _
    rw [List.append_assoc, after?_append, Option.getD_some, List.takeWhile_append_of_pos hcolon,
      trim_append_of_bareEnds (bareEnds_issuedId n) (List.cons_ne_nil _ _)]
    rfl
  | featureScenario => exact hfunction _ fun _ => rfl

/-- An issued name carries its identifier. -/
theorem idOfName_issued (d : Dialect) (n : ℕ) (rest : Text) :
    d.idOfName (issuedMark d n ++ rest) = issuedId n := by
  have htail : idTail d (markEnd d :: rest) = [] := by cases d <;> rfl
  rw [issuedMark_eq_token, List.append_assoc, idOfName_issuedToken]
  exact (congrArg (issuedId n ++ ·) htail).trans (List.append_nil _)

end Names

end TestCatalog.Proofs
