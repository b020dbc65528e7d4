import TestCatalog.Proofs.Journals
import TestCatalog.Proofs.Walks

/-!
# The limits of a walk

A walk takes in the files of a dialect one after another. It ends with as many as its cap says, or
with an error when there is one more than a batch may hold. Both are held against the number of
files so far, each time that one was taken in.
-/

namespace TestCatalog.Proofs

variable {s : Discovery.Search}

/-- The file that a search takes in at a place. -/
def soughtAt? (s : Discovery.Search) (place : TreePlace) : Option Path :=
  match place.tree with
  | .file _ => some (pathTo s.directory place.location) |>.filter s.dialect.matchesPath
  | .folder _ => none

/-- How many files end a walk, whatever comes after them: as many as the cap says, or one more than
a batch may hold. -/
def needed (s : Discovery.Search) : ℕ :=
  s.cap.elim (Limits.maxFiles + 1) (min (Limits.maxFiles + 1))

/-- What a walk gives that ends with as many files as are needed. -/
def stopped (s : Discovery.Search) (files : List Path) : Except BatchError (List Path) :=
  if Limits.maxFiles < needed s then .error (.tooManyFiles (needed s)) else .ok files

/-- What a walk gives that meets these files before it comes to a folder that it cannot enter, or to
the end. -/
def ended (s : Discovery.Search) (met : List Path) (closed : Option Path) :
    Except BatchError (List Path) :=
  if needed s ≤ met.length then stopped s (met.take (needed s))
  else
    match closed with
    | some path => .error (.traversal path .nameTooLong)
    | none => .ok met

/-- What the rest of a walk gives with the files that were found so far. -/
def walkOn (s : Discovery.Search) (files : Array Path) (visits : List FileTree.Visit) :
    Except BatchError (List Path) :=
  (Discovery.walk s files visits).run.value.map Array.toList

section Loop

variable {n : ℕ} {files : Array Path} {path : Path} {visits : List FileTree.Visit}
  {below : List TreePlace}

lemma lt_needed_iff : n < needed s ↔ n ≤ Limits.maxFiles ∧ ∀ m ∈ s.cap, n < m := by
  unfold needed
  cases s.cap with
  | none => exact Nat.lt_succ_iff.trans (by simp)
  | some m => exact (Nat.lt_min.trans (and_congr_left' Nat.lt_succ_iff)).trans (by simp)

/-- One more file is taken in, and it may be the last one that is needed. -/
lemma walkOn_file (hfiles : files.size < needed s)
    (hmatches : s.dialect.matchesPath path = true) :
    walkOn s files (.file path :: visits) =
      if files.size + 1 < needed s then walkOn s (files.push path) visits
      else stopped s (files.push path).toList := by
  have hsize : (files.push path).size = files.size + 1 := Array.size_push path
  have hlast (hmore : ¬ files.size + 1 < needed s) : needed s = files.size + 1 := by omega
  unfold walkOn
  rw [Discovery.walk, if_pos hmatches]
  dsimp only
  rw [hsize]
  by_cases hlimit : Limits.maxFiles < files.size + 1
  · have hmore : ¬ files.size + 1 < needed s := fun hmore =>
      Nat.not_le.mpr hlimit (lt_needed_iff.mp hmore).1
    rw [if_pos hlimit, if_neg hmore, run_lift_bind, stopped, hlast hmore, if_pos hlimit]
    rfl
  rw [if_neg hlimit]
  by_cases hcap : s.cap.any (· ≤ files.size + 1) = true
  · have hmore : ¬ files.size + 1 < needed s := by
      intro hmore
      obtain ⟨m, hm, hle⟩ := (Option.any_eq_true ..).mp hcap
      exact Nat.not_lt.mpr (of_decide_eq_true hle) ((lt_needed_iff.mp hmore).2 m hm)
    rw [if_pos hcap, if_neg hmore, run_lift_bind, stopped, hlast hmore, if_neg hlimit]
    rfl
  · have hmore : files.size + 1 < needed s := by
      refine lt_needed_iff.mpr ⟨Nat.not_lt.mp hlimit, fun m hm => ?_⟩
      by_contra hle
      exact hcap ((Option.any_eq_true ..).mpr ⟨m, hm, decide_eq_true (Nat.not_lt.mp hle)⟩)
    rw [if_neg hcap, if_pos hmore]

lemma walkOn_other (hmatches : ¬ s.dialect.matchesPath path = true) :
    walkOn s files (.file path :: visits) = walkOn s files visits := by
  unfold walkOn
  rw [Discovery.walk, if_neg hmatches]

lemma ended_of_lt {met : List Path} (h : met.length < needed s) (closed : Option Path) :
    ended s met closed =
      closed.elim (.ok met) fun path => .error (.traversal path .nameTooLong) := by
  unfold ended
  rw [if_neg (Nat.not_le.mpr h)]
  cases closed <;> rfl

lemma ended_of_eq {met : List Path} (h : met.length = needed s) (more : List Path)
    (closed : Option Path) : ended s (met ++ more) closed = stopped s met := by
  unfold ended
  rw [if_pos (by rw [List.length_append]; omega), ← h, List.take_left]

/-- A walk takes in the files that it meets up to the first folder that it cannot enter, and no more
of them than are needed. -/
theorem Walked.walkOn_eq (h : Walked s.recursive s.directory below visits)
    (hfiles : files.size < needed s) :
    let isClosed := TreePlace.isClosed s.recursive s.directory
    walkOn s files visits =
      ended s (files.toList ++ (below.takeWhile (!isClosed ·)).filterMap (soughtAt? s))
        ((below.find? isClosed).map fun place => pathTo s.directory place.location) := by
  intro isClosed
  -- the number of files so far stays below the needed one, or else the walk ends
  induction h generalizing files with
  | done =>
    have hmet : files.toList.length < needed s := hfiles
    rw [List.takeWhile_nil, List.filterMap_nil, List.append_nil]
    exact (ended_of_lt hmet none).symm
  | @file location content below visits rest ih =>
    have hopen : isClosed ⟨location, .file content⟩ = false := rfl
    rw [List.takeWhile_cons_of_pos (by rw [hopen]; rfl), List.find?_cons_of_neg (by simp [hopen])]
    by_cases hmatches : s.dialect.matchesPath (pathTo s.directory location) = true
    · have hsought : soughtAt? s ⟨location, .file content⟩ = some (pathTo s.directory location) :=
        Option.filter_some_pos hmatches
      have hsize : (files.push (pathTo s.directory location)).size = files.size + 1 :=
        Array.size_push _
      have hpushed (more : List Path) : files.toList ++ pathTo s.directory location :: more =
          (files.push (pathTo s.directory location)).toList ++ more := by
        rw [Array.toList_push, List.append_cons]
      rw [List.filterMap_cons_some hsought, walkOn_file hfiles hmatches, hpushed]
      split_ifs with hmore
      · exact ih (by rwa [hsize])
      · refine (ended_of_eq ?_ _ _).symm
        rw [Array.length_toList, hsize]
        omega
    · have hsought : soughtAt? s ⟨location, .file content⟩ = none :=
        Option.filter_some_neg (Bool.eq_false_iff.mpr hmatches)
      rw [List.filterMap_cons_none hsought, walkOn_other hmatches, ih hfiles]
  | @folder location entries below visits hopen rest ih =>
    have hopen : isClosed ⟨location, .folder entries⟩ = false := hopen
    rw [List.takeWhile_cons_of_pos (by rw [hopen]; rfl), List.find?_cons_of_neg (by simp [hopen]),
      List.filterMap_cons_none rfl]
    exact ih hfiles
  | @closed location entries hclosed below visits =>
    have hclosed : isClosed ⟨location, .folder entries⟩ = true := hclosed
    have hmet : files.toList.length < needed s := hfiles
    rw [List.takeWhile_cons_of_neg (by simp [hclosed]), List.find?_cons_of_pos hclosed,
      List.filterMap_nil, List.append_nil, ended_of_lt hmet]
    rfl

/-- A walk that can enter every folder meets all files, and otherwise it meets those of the places
before the first folder that it cannot enter. -/
theorem walkOn_visitsOf (entries : List (Text × FileTree)) (hpos : 0 < needed s) :
    let walk := walkOn s #[] (FileTree.visitsOf s.recursive s.directory entries)
    let isClosed := TreePlace.isClosed s.recursive s.directory
    ((∀ place ∈ placesBelow s.recursive entries, isClosed place = false) ∧
        walk = ended s ((placesBelow s.recursive entries).filterMap (soughtAt? s)) none) ∨
      ∃ above place below, placesBelow s.recursive entries = above ++ place :: below ∧
        (∀ before ∈ above, isClosed before = false) ∧ isClosed place = true ∧
        walk = ended s (above.filterMap (soughtAt? s))
          (some (pathTo s.directory place.location)) := by
  intro walk isClosed
  have hnone : (#[] : Array Path).size < needed s := hpos
  have hwalk := (walked_visitsOf s.recursive entries s.directory).walkOn_eq hnone
  cases hfind : (placesBelow s.recursive entries).find? isClosed with
  | none =>
    have hopen : ∀ place ∈ placesBelow s.recursive entries, isClosed place = false := fun place h =>
      Bool.eq_false_iff.mpr (List.find?_eq_none.mp hfind place h)
    have hall : (placesBelow s.recursive entries).takeWhile (!isClosed ·) =
        placesBelow s.recursive entries :=
      List.takeWhile_eq_self_iff.mpr fun place h => by rw [hopen place h]; rfl
    refine .inl ⟨hopen, hwalk.trans ?_⟩
    rw [hfind, hall]
    rfl
  | some place =>
    obtain ⟨hclosed, above, below, hplaces, habove⟩ := List.find?_eq_some_iff_append.mp hfind
    have hmet : (placesBelow s.recursive entries).takeWhile (!isClosed ·) = above := by
      rw [hplaces, List.takeWhile_append_of_pos habove,
        List.takeWhile_cons_of_neg (by simp [hclosed]), List.append_nil]
    refine .inr ⟨above, place, below, hplaces, fun before h => by simpa using habove before h,
      hclosed, hwalk.trans ?_⟩
    rw [hfind, hmet]
    rfl

end Loop

end TestCatalog.Proofs
