import TestCatalog.Proofs.FileTrees
import TestCatalog.Proofs.Journals
import TestCatalog.Source.File

/-!
# Extensions

A search for the files of a dialect lowers the ASCII letters of an extension, and a reader of files
lowers all letters. Both take the same files, since no other character lowers to a letter that
stands in the extension of a dialect.
-/

namespace TestCatalog.Proofs

/-! ## Lowered letters -/

/-- The letters that stand in the extensions of the dialects. -/
def letters : Text :=
  Dialect.all.flatMap Dialect.extension

def eitherCase : Text :=
  letters ++ letters.map Char.toUpper

section Letters

variable {c x : Char} {before s t : Text}

lemma lowerChar_of_mem : ∀ c ∈ eitherCase, c ≠ 'Σ' ∧ Text.lowerChar c = [c.toLower] := by
  decide +kernel

/-- Of all mappings, only that of the ASCII letters comes to these letters. -/
lemma shift_of_letter : ∀ run ∈ Text.caseRuns, ∀ x ∈ letters,
    (run.first : ℤ) ≤ x.toNat - run.shift → (x.toNat : ℤ) - run.shift ≤ run.last →
      run.shift = 32 := by
  decide +kernel

lemma toLower_of_not_ascii (h : 128 ≤ c.toNat) : c.toLower = c := by
  unfold Char.toLower
  refine dif_neg fun hupper => ?_
  have hle : c.toNat ≤ 'Z'.toNat := UInt32.le_iff_toNat_le.mp hupper.2
  have hlast : 'Z'.toNat = 90 := rfl
  omega

lemma mem_eitherCase_of_toLower (h : c.toLower ∈ letters) : c ∈ eitherCase := by
  rcases Nat.lt_or_ge c.toNat 128 with hascii | hother
  · have hall : ∀ n < 128, (Char.ofNat n).toLower ∈ letters → Char.ofNat n ∈ eitherCase := by
      decide +kernel
    have hc := hall c.toNat hascii
    rw [Char.ofNat_toNat] at hc
    exact hc h
  · rw [toLower_of_not_ascii hother] at h
    exact List.mem_append_left _ h

lemma toNat_ofNat_or (n : ℕ) : (Char.ofNat n).toNat = n ∨ Char.ofNat n = '\x00' := by
  by_cases hvalid : n.isValidChar
  · left
    rw [Char.ofNat, dif_pos hvalid]
    rfl
  · right
    rw [Char.ofNat, dif_neg hvalid]
    rfl

lemma mem_eitherCase_of_lowerChar (hx : x ∈ Text.lowerChar c) (h : x ∈ letters) :
    c ∈ eitherCase := by
  unfold Text.lowerChar at hx
  dsimp only at hx
  split_ifs at hx with hdotted
  · have hnone : ∀ x ∈ (['i', '\u0307'] : Text), x ∉ letters := by decide
    exact absurd h (hnone x hx)
  · split at hx
    · -- the run must be that of the ASCII letters, so the letter has a capital 32 below it
      rename_i run hrun
      have hwithin := List.find?_some hrun
      simp only [Bool.and_eq_true, decide_eq_true_eq] at hwithin
      have hpositive : ∀ x ∈ letters, x ≠ '\x00' ∧ 0 < x.toNat := by decide
      obtain ⟨hnul, hpos⟩ := hpositive x h
      rw [List.mem_singleton] at hx
      have hcode : x.toNat = ((c.toNat : ℤ) + run.shift).toNat := by
        rw [hx] at hnul ⊢
        exact (toNat_ofNat_or _).resolve_right hnul
      have hshift := shift_of_letter run (List.mem_of_find?_eq_some hrun) x h (by omega) (by omega)
      have hupper : ∀ x ∈ letters, Char.ofNat (x.toNat - 32) ∈ eitherCase := by decide +kernel
      have hc := hupper x h
      have hlower : x.toNat - 32 = c.toNat := by omega
      rwa [hlower, Char.ofNat_toNat] at hc
    · rw [List.mem_singleton.mp hx] at h
      exact List.mem_append_left _ h

/-- Where only letters of either case stand, or only these letters come of it, lowering all letters
is lowering the ASCII letters. -/
lemma lowerAfter_of_mem (h : ∀ c ∈ t, c ∈ eitherCase) (before : Text) :
    Text.lowerAfter before t = Text.asciiLowercase t := by
  induction t generalizing before with
  | nil => rfl
  | cons c t ih =>
    obtain ⟨hsigma, hlower⟩ := lowerChar_of_mem c (h c List.mem_cons_self)
    rw [Text.lowerAfter, if_neg hsigma, hlower, ih fun c hc => h c (List.mem_cons_of_mem _ hc)]
    rfl

lemma lowerChar_ne_nil (c : Char) : Text.lowerChar c ≠ [] := by
  unfold Text.lowerChar
  dsimp only
  split_ifs
  · exact List.cons_ne_nil _ _
  · split <;> exact List.cons_ne_nil _ _

lemma mem_eitherCase_of_lowerAfter (h : ∀ x ∈ Text.lowerAfter before t, x ∈ letters) :
    ∀ c ∈ t, c ∈ eitherCase := by
  induction t generalizing before with
  | nil => simp
  | cons c t ih =>
    rw [Text.lowerAfter] at h
    obtain ⟨hfirst, hrest⟩ := List.forall_mem_append.mp h
    rw [List.forall_mem_cons]
    refine ⟨?_, ih hrest⟩
    by_cases hsigma : c = 'Σ'
    · have hnone : 'ς' ∉ letters ∧ 'σ' ∉ letters := by decide
      rw [if_pos hsigma] at hfirst
      split_ifs at hfirst <;> simp [hnone] at hfirst
    · rw [if_neg hsigma] at hfirst
      obtain ⟨x, hx⟩ := List.exists_mem_of_ne_nil _ (lowerChar_ne_nil c)
      exact mem_eitherCase_of_lowerChar hx (hfirst x hx)

theorem lowercase_eq_iff (hs : ∀ x ∈ s, x ∈ letters) :
    Text.lowercase t = s ↔ Text.asciiLowercase t = s := by
  constructor
  · rintro rfl
    exact (lowerAfter_of_mem (mem_eitherCase_of_lowerAfter hs) []).symm
  · rintro rfl
    refine lowerAfter_of_mem (fun c hc => mem_eitherCase_of_toLower ?_) []
    exact hs _ (List.mem_map_of_mem hc)

end Letters

/-! ## Files of a dialect -/

section Files

variable {d : Dialect} {path : Path}

lemma mem_letters (d : Dialect) : ∀ x ∈ d.extension, x ∈ letters := by
  cases d <;> decide

lemma asciiLowercase_extension (d : Dialect) : Text.asciiLowercase d.extension = d.extension := by
  cases d <;> decide

/-- A search takes a file exactly if its reader finds the extension that it expects. -/
lemma matchesPath_iff_extension? :
    d.matchesPath path = true ↔ FileReader.extension? path = some d.extension := by
  unfold Dialect.matchesPath FileReader.extension?
  cases path.extension? with
  | none => simp
  | some extension =>
    rw [Option.any_some, decide_eq_true_eq, asciiLowercase_extension, Option.map_some,
      Option.some_inj, lowercase_eq_iff (mem_letters d)]

lemma ofExtension?_of_matchesPath (h : d.matchesPath path = true) :
    path.extension?.bind Dialect.ofExtension? = some d := by
  unfold Dialect.matchesPath at h
  cases hpath : path.extension? with
  | none =>
    rw [hpath] at h
    cases h
  | some extension =>
    rw [hpath, Option.any_some, decide_eq_true_eq] at h
    rw [Option.bind_some, Dialect.ofExtension?]
    simp only [h]
    cases d <;> decide

variable {r : FileReader} {tree : FileTree} {content : TestCatalog.Content}

lemma inspect_of_find (h : tree.find path = .ok (.file content)) :
    FileReader.inspect tree path = .ok content := by
  have hspelled : path.spelling ≠ [] := by
    intro hnil
    have hlocate : tree.locate path = .error .notFound := by
      unfold FileTree.locate FileTree.checkSpelling
      simp [hnil, Bind.bind, Except.bind]
    unfold FileTree.find at h
    rw [hlocate] at h
    cases h
  rw [FileReader.inspect, if_neg hspelled, h]

lemma validate_eq (hrequire : r.requireExtension = true)
    (hexpect : r.expectedExtension = some d.extension) {size : ℕ} (hne : size ≠ 0)
    (hsize : size ≤ Limits.maxFileSize) : r.validate path size =
      if FileReader.extension? path = some d.extension then .ok ()
      else .error (.invalidExtension d.extension (FileReader.extension? path)) := by
  rw [FileReader.validate, if_neg (Nat.not_lt.mpr hsize), if_neg hne, hrequire, hexpect]

lemma read_of_rejected {e : FileError} (hinspect : FileReader.inspect tree path = .ok content)
    (hvalid : r.validate path content.size = .error e) :
    (r.read tree path).run.value = .error e := by
  unfold FileReader.read
  rw [run_lift_bind, run_bind_of_ok ((FileReader.value_checked _ _ _).trans hinspect)]
  dsimp only
  rw [run_bind_of_error ((FileReader.value_checked _ _ _).trans hvalid)]

/-- A file that is not rejected is not refused later for its extension. -/
lemma read_of_valid (hinspect : FileReader.inspect tree path = .ok content)
    (hvalid : r.validate path content.size = .ok ()) (expected : Text) (found : Option Text) :
    (r.read tree path).run.value ≠ .error (.invalidExtension expected found) := by
  unfold FileReader.read
  rw [run_lift_bind, run_bind_of_ok ((FileReader.value_checked _ _ _).trans hinspect)]
  dsimp only
  rw [run_bind_of_ok ((FileReader.value_checked _ _ _).trans hvalid)]
  cases content.text? with
  | none =>
    rw [run_bind_of_error (FileReader.value_checked _ _ _)]
    simp
  | some source =>
    rw [run_bind_of_ok (FileReader.value_checked _ _ _)]
    split_ifs <;> exact fun h => by cases h

theorem matchesPath_iff_read (hrequire : r.requireExtension = true)
    (hexpect : r.expectedExtension = some d.extension)
    (hfile : tree.find path = .ok (.file content)) (hne : content.size ≠ 0)
    (hsize : content.size ≤ Limits.maxFileSize) :
    (d.matchesPath path = true ↔ ∀ expected found,
        (r.read tree path).run.value ≠ .error (.invalidExtension expected found)) ∧
      (d.matchesPath path = true → path.extension?.bind Dialect.ofExtension? = some d) := by
  have hinspect := inspect_of_find hfile
  have hvalid : r.validate path content.size = _ := validate_eq hrequire hexpect hne hsize
  refine ⟨?_, ofExtension?_of_matchesPath⟩
  rw [matchesPath_iff_extension?]
  constructor
  · intro hextension
    rw [if_pos hextension] at hvalid
    exact read_of_valid hinspect hvalid
  · intro hread
    by_contra hextension
    rw [if_neg hextension] at hvalid
    exact hread _ _ (read_of_rejected hinspect hvalid)

end Files

/-! ## A file in capitals -/

def capitalPath : Path := ⟨"suite/CART.PY"⟩

def capitalContent : TestCatalog.Content := .text "def test_NEW_cart():"

def capitalTree : FileTree :=
  FileTree.addFile .empty capitalPath capitalContent

def strictReader : FileReader where
  expectedExtension := some Dialect.annotatedFunction.extension
  requireExtension := true

theorem matchesPath_iff_read_capitals :
    strictReader.requireExtension = true ∧
      strictReader.expectedExtension = some Dialect.annotatedFunction.extension ∧
      capitalTree.find capitalPath = .ok (.file capitalContent) ∧ capitalContent.size ≠ 0 ∧
      capitalContent.size ≤ Limits.maxFileSize ∧
      Dialect.annotatedFunction.matchesPath capitalPath = true ∧
      (∀ expected found, (strictReader.read capitalTree capitalPath).run.value ≠
        .error (.invalidExtension expected found)) ∧
      capitalPath.extension?.bind Dialect.ofExtension? = some .annotatedFunction := by
  have hfile : capitalTree.find capitalPath = .ok (.file capitalContent) := by rfl
  have hne : capitalContent.size ≠ 0 := by decide
  have hsize : capitalContent.size ≤ Limits.maxFileSize := by decide
  have hmatches : Dialect.annotatedFunction.matchesPath capitalPath = true := by decide
  obtain ⟨hiff, hdialect⟩ := matchesPath_iff_read (r := strictReader) rfl rfl hfile hne hsize
  exact ⟨rfl, rfl, hfile, hne, hsize, hmatches, hiff.mp hmatches, hdialect hmatches⟩

end TestCatalog.Proofs
