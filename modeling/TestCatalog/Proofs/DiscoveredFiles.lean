import TestCatalog.Proofs.ByteSizes
import TestCatalog.Proofs.PathOrder
import TestCatalog.Proofs.WalkLimits

/-!
# Discovered files

A search finds the files of a dialect below a folder in the order of their paths, which is the order
of the walk. Its cap and the limit of a batch are held against all files that there are. A folder
with too long a path is in the way if the search comes to it before it has found enough.
-/

namespace TestCatalog.Proofs

variable {s : Discovery.Search} {root : FileTree} {entries : List (Text × FileTree)}

/-! ## Searches -/

/-- A file of the dialect that stands below the folder of the search, or directly in it. -/
structure Sought (s : Discovery.Search) (t : FileTree) (path : Path) : Prop where
  stands : ∃ location content, (s.recursive = true ∨ location.length = 1) ∧
    t.at? location = some (.file content) ∧ path = pathTo s.directory location
  of_dialect : s.dialect.matchesPath path = true

/-- How many of the files a search asks for. -/
def wanted (s : Discovery.Search) (files : List Path) : ℕ :=
  s.cap.elim files.length (min files.length)

/-- What a search gives where these are all files that it can find. -/
def found (s : Discovery.Search) (files : List Path) : Except BatchError (List Path) :=
  if files = [] then .error (.noFilesFound s.directory s.dialect.extension)
  else if Limits.maxFiles < wanted s files then .error (.tooManyFiles (Limits.maxFiles + 1))
  else .ok (files.take (wanted s files))

/-- A folder below that of a recursive search, with a path that is too long for it to be entered. -/
structure TooDeep (s : Discovery.Search) (t : FileTree) (path : Path) : Prop where
  recursive_eq : s.recursive = true
  stands : ∃ location entries, location ≠ [] ∧ t.at? location = some (.folder entries) ∧
    path = pathTo s.directory location
  size : FileTree.maxPathBytes < Text.utf8Size path.spelling

/-- The first folder that cannot be entered, where fewer files come before it than a search needs to
end. -/
structure InTheWay (s : Discovery.Search) (t : FileTree) (files : List Path) (path : Path) :
    Prop where
  tooDeep : TooDeep s t path
  first : ∀ other, TooDeep s t other → ¬ other.key < path.key
  few : (files.filter fun file => file.key < path.key).length < needed s

/-- What a search gives after its walk. -/
def settled (s : Discovery.Search) :
    Except BatchError (List Path) → Except BatchError (List Path)
  | .ok files =>
    if files = [] then .error (.noFilesFound s.directory s.dialect.extension) else .ok files
  | .error e => .error e

lemma value_accept (s : Discovery.Search) (files : List Path) :
    (Discovery.accept s files).run.value = settled s (.ok files) := by
  unfold Discovery.accept settled
  dsimp only
  split_ifs
  · rfl
  · rw [run_lift_bind]
    rfl

lemma value_run_of_find (h : root.find s.directory = .ok (.folder entries)) :
    (Discovery.run s root).run.value =
      settled s (walkOn s #[] (FileTree.visitsOf s.recursive s.directory entries)) := by
  unfold Discovery.run walkOn
  rw [run_lift_bind, h]
  dsimp only
  rw [FileTree.visits, Discovery.walk]
  cases hvalue : (Discovery.walk s #[] _).run.value with
  | error e => rw [run_bind_of_error hvalue]; rfl
  | ok files => rw [run_bind_of_ok hvalue]; exact value_accept s files.toList

section Places

variable {path : Path} {place : TreePlace}

lemma sought_iff (h : WellOrdered (.folder entries)) : Sought s (.folder entries) path ↔
    path ∈ (placesBelow s.recursive entries).filterMap (soughtAt? s) := by
  rw [List.mem_filterMap]
  constructor
  · rintro ⟨⟨location, content, hdirect, hfile, rfl⟩, hmatches⟩
    have hne : location ≠ [] := by
      rintro rfl
      cases hfile
    exact ⟨_, (mem_placesBelow_iff h).mpr ⟨hne, hdirect, hfile⟩, Option.filter_some_pos hmatches⟩
  · rintro ⟨⟨location, t⟩, hmem, hsought⟩
    obtain ⟨-, hdirect, hstands⟩ := (mem_placesBelow_iff h).mp hmem
    cases t with
    | folder entries => cases hsought
    | file content =>
      have hsought : (some (pathTo s.directory location)).filter s.dialect.matchesPath =
          some path := hsought
      obtain ⟨heq, hmatches⟩ := Option.filter_eq_some_iff.mp hsought
      cases heq
      exact ⟨⟨location, content, hdirect, hstands, rfl⟩, hmatches⟩

lemma tooDeep_iff (h : WellOrdered (.folder entries)) : TooDeep s (.folder entries) path ↔
    ∃ place ∈ placesBelow s.recursive entries,
      place.isClosed s.recursive s.directory = true ∧ path = pathTo s.directory place.location := by
  constructor
  · rintro ⟨hrecursive, ⟨location, below, hne, hfolder, rfl⟩, hsize⟩
    refine ⟨_, (mem_placesBelow_iff h).mpr ⟨hne, .inl hrecursive, hfolder⟩, ?_, rfl⟩
    simp [TreePlace.isClosed, hrecursive, hsize]
  · rintro ⟨⟨location, t⟩, hmem, hclosed, rfl⟩
    obtain ⟨hne, -, hstands⟩ := (mem_placesBelow_iff h).mp hmem
    cases t with
    | file content => cases hclosed
    | folder below =>
      obtain ⟨hrecursive, hsize⟩ := Bool.and_eq_true_iff.mp hclosed
      exact ⟨hrecursive, ⟨location, below, hne, hstands, rfl⟩, of_decide_eq_true hsize⟩

end Places

section Bounds

variable {files : List Path}

lemma wanted_le (s : Discovery.Search) (files : List Path) : wanted s files ≤ files.length := by
  unfold wanted
  cases s.cap with
  | none => exact Nat.le_refl _
  | some n => exact Nat.min_le_left _ _

lemma wanted_eq (s : Discovery.Search) (files : List Path) :
    min (wanted s files) (Limits.maxFiles + 1) = min files.length (needed s) := by
  unfold wanted needed
  cases s.cap with
  | none => rfl
  | some n =>
    simp only [Option.elim_some]
    omega

lemma needed_pos (hcap : ∀ n ∈ s.cap, 1 ≤ n) : 0 < needed s :=
  lt_needed_iff.mpr ⟨Nat.zero_le _, hcap⟩

lemma needed_le (s : Discovery.Search) : needed s ≤ Limits.maxFiles + 1 := by
  by_contra hmore
  exact Nat.not_succ_le_self _ (lt_needed_iff.mp (Nat.not_le.mp hmore)).1

/-- The cap and the limit are held against all files that there are. -/
theorem found_eq_settled (hcap : ∀ n ∈ s.cap, 1 ≤ n) (files : List Path) :
    found s files = settled s (ended s files none) := by
  have hpos := needed_pos hcap
  have hmost := needed_le s
  have hle := wanted_le s files
  have hwanted := wanted_eq s files
  by_cases hfull : needed s ≤ files.length
  · have hne : files ≠ [] := List.ne_nil_of_length_pos (by omega)
    have hended : ended s files none = stopped s (files.take (needed s)) := if_pos hfull
    rw [found, if_neg hne, hended, stopped]
    by_cases hlimit : Limits.maxFiles < needed s
    · have hneeded : needed s = Limits.maxFiles + 1 := by omega
      rw [if_pos (by omega), if_pos hlimit, settled, hneeded]
    · have hneeded : wanted s files = needed s := by omega
      have htake : files.take (needed s) ≠ [] :=
        List.ne_nil_of_length_pos (by rw [List.length_take]; omega)
      rw [if_neg (by omega), if_neg hlimit, settled, if_neg htake, hneeded]
  · have hall : wanted s files = files.length := by omega
    have hlimit : ¬ Limits.maxFiles < files.length := by omega
    rw [ended_of_lt (Nat.not_le.mp hfull), Option.elim_none, found, settled, hall, if_neg hlimit,
      List.take_length]

/-- The files that come after those that are needed do not count. -/
lemma ended_append {met : List Path} (h : needed s ≤ met.length) (more : List Path)
    (closed closed' : Option Path) : ended s (met ++ more) closed = ended s met closed' := by
  unfold ended
  rw [if_pos (by rw [List.length_append]; omega), if_pos h, List.take_append_of_le_length h]

end Bounds

section Way

variable {above below : List TreePlace} {path : Path} {place : TreePlace}

lemma eq_of_soughtAt? (h : soughtAt? s place = some path) :
    path = pathTo s.directory place.location := by
  obtain ⟨location, t⟩ := place
  cases t with
  | folder entries => cases h
  | file content =>
    have h : (some (pathTo s.directory location)).filter s.dialect.matchesPath = some path := h
    exact (Option.some_inj.mp (Option.filter_eq_some_iff.mp h).1).symm

/-- The files with a smaller path than a place are those of the places before it. -/
lemma filter_before (h : (above ++ place :: below).Pairwise fun place place' =>
      (pathTo s.directory place.location).key < (pathTo s.directory place'.location).key) :
    ((above ++ place :: below).filterMap (soughtAt? s)).filter
        (fun file => file.key < (pathTo s.directory place.location).key) =
      above.filterMap (soughtAt? s) := by
  obtain ⟨-, hbelow, habove⟩ := List.pairwise_append.mp h
  rw [List.filterMap_append, List.filter_append]
  refine (congrArg₂ (· ++ ·) ?_ ?_).trans (List.append_nil _)
  · refine List.filter_eq_self.mpr fun file hfile => decide_eq_true ?_
    obtain ⟨before, hbefore, hsought⟩ := List.mem_filterMap.mp hfile
    rw [eq_of_soughtAt? hsought]
    exact habove before hbefore place List.mem_cons_self
  · refine List.filter_eq_nil_iff.mpr fun file hfile hlt => ?_
    have hlt := of_decide_eq_true hlt
    obtain ⟨after, hafter, hsought⟩ := List.mem_filterMap.mp hfile
    rw [eq_of_soughtAt? hsought] at hlt
    rcases List.mem_cons.mp hafter with rfl | hafter
    · exact List.lt_irrefl _ hlt
    · exact List.lt_asymm hlt ((List.pairwise_cons.mp hbelow).1 after hafter)

/-- The first folder in the list that cannot be entered is the one that may be in the way. -/
lemma inTheWay_iff (hordered : WellOrdered (.folder entries))
    (hplaces : placesBelow s.recursive entries = above ++ place :: below)
    (habove : ∀ before ∈ above, before.isClosed s.recursive s.directory = false)
    (hclosed : place.isClosed s.recursive s.directory = true) (path : Path) :
    InTheWay s (.folder entries) ((placesBelow s.recursive entries).filterMap (soughtAt? s)) path ↔
      path = pathTo s.directory place.location ∧
        (above.filterMap (soughtAt? s)).length < needed s := by
  have hsorted := paths_sorted s.recursive hordered s.directory
  have hdeep : TooDeep s (.folder entries) (pathTo s.directory place.location) :=
    (tooDeep_iff hordered).mpr ⟨place, by rw [hplaces]; simp, hclosed, rfl⟩
  rw [hplaces] at hsorted ⊢
  have hbefore := filter_before hsorted
  -- a folder that cannot be entered is this one or comes after it
  have hafter (path : Path) (hpath : TooDeep s (.folder entries) path) :
      path = pathTo s.directory place.location ∨
        (pathTo s.directory place.location).key < path.key := by
    obtain ⟨other, hother, hotherClosed, rfl⟩ := (tooDeep_iff hordered).mp hpath
    rw [hplaces, List.mem_append, List.mem_cons] at hother
    rcases hother with hother | rfl | hother
    · rw [habove other hother] at hotherClosed
      cases hotherClosed
    · exact .inl rfl
    · exact .inr ((List.pairwise_cons.mp (List.pairwise_append.mp hsorted).2.1).1 other hother)
  constructor
  · rintro ⟨htoo, hfirst, hfew⟩
    obtain rfl : path = pathTo s.directory place.location :=
      (hafter path htoo).resolve_right fun hlt => hfirst _ hdeep hlt
    exact ⟨rfl, by rwa [hbefore] at hfew⟩
  · rintro ⟨rfl, hfew⟩
    refine ⟨hdeep, fun other hother hlt => ?_, by rwa [hbefore]⟩
    rcases hafter other hother with rfl | hlt'
    · exact List.lt_irrefl _ hlt
    · exact List.lt_asymm hlt hlt'

end Way

lemma found_sorted (h : WellOrdered (.folder entries)) :
    ((placesBelow s.recursive entries).filterMap (soughtAt? s)).Pairwise (·.key < ·.key) := by
  refine (paths_sorted s.recursive h s.directory).filterMap _ ?_
  intro place place' hlt file hfile file' hfile'
  rwa [eq_of_soughtAt? hfile, eq_of_soughtAt? hfile']

/-- A search gives the first files of all that it can find, in the order of their paths, as many as
it asks for, or the error that there are none or too many. If it comes to a folder that it cannot
enter before it has found enough, it gives the error about the first such folder. -/
theorem run_discovers (hdirectory : root.find s.directory = .ok (.folder entries))
    (hordered : WellOrdered (.folder entries)) (hcap : ∀ n ∈ s.cap, 1 ≤ n) :
    ∃ files : List Path, (∀ path, path ∈ files ↔ Sought s (.folder entries) path) ∧
      files.Pairwise (·.key < ·.key) ∧ files.Nodup ∧
      ((∀ path, ¬ InTheWay s (.folder entries) files path) →
        (Discovery.run s root).run.value = found s files) ∧
      ∀ path, InTheWay s (.folder entries) files path →
        (Discovery.run s root).run.value = .error (.traversal path .nameTooLong) := by
  have hsorted := found_sorted (s := s) hordered
  refine ⟨_, fun path => (sought_iff hordered).symm, hsorted, hsorted.imp fun hlt heq => ?_, ?_⟩
  · rw [heq] at hlt
    exact List.lt_irrefl _ hlt
  rw [value_run_of_find hdirectory, found_eq_settled hcap]
  rcases walkOn_visitsOf entries (needed_pos hcap) with
    ⟨hopen, hwalk⟩ | ⟨above, place, below, hplaces, habove, hclosed, hwalk⟩
  · refine ⟨fun _ => by rw [hwalk], fun path hway => ?_⟩
    obtain ⟨place, hplace, hclosed, -⟩ := (tooDeep_iff hordered).mp hway.tooDeep
    rw [hopen place hplace] at hclosed
    cases hclosed
  · have hway := inTheWay_iff hordered hplaces habove hclosed
    rw [hwalk]
    refine ⟨fun hfree => ?_, fun path hpath => ?_⟩
    · have henough : needed s ≤ (above.filterMap (soughtAt? s)).length := by
        by_contra hfew
        exact hfree _ ((hway _).mpr ⟨rfl, Nat.not_le.mp hfew⟩)
      rw [hplaces, List.filterMap_append, ended_append henough _ none]
    · obtain ⟨rfl, hfew⟩ := (hway path).mp hpath
      rw [ended_of_lt hfew]
      rfl

/-! ## A nested folder -/

def nestedEntries : List (Text × FileTree) :=
  [("cart", .folder [("total.py", .file (.text "def test_total():"))]),
    ("cart.py", .file (.text "def test_cart():")), ("readme.md", .file (.text []))]

def nestedTree : FileTree :=
  .folder [("tmp", .folder [("/", .folder [("suite", .folder nestedEntries)])])]

def cappedSearch : Discovery.Search where
  directory := ⟨"suite"⟩
  dialect := .annotatedFunction
  cap := some 2

lemma wellOrdered_nestedEntries : WellOrdered (.folder nestedEntries) := by
  refine .folder (by decide) (by decide) ?_
  simp only [nestedEntries, List.forall_mem_cons]
  refine ⟨.folder (by decide) (by decide) ?_, .file _, .file _, by simp⟩
  simp only [List.forall_mem_cons]
  exact ⟨.file _, by simp⟩

lemma placesBelow_nestedEntries : placesBelow true nestedEntries =
    [⟨["cart"], .folder [("total.py", .file (.text "def test_total():"))]⟩,
      ⟨["cart", "total.py"], .file (.text "def test_total():")⟩,
      ⟨["cart.py"], .file (.text "def test_cart():")⟩, ⟨["readme.md"], .file (.text [])⟩] := by
  unfold nestedEntries
  simp only [placesBelow]
  rfl

lemma not_tooDeep_nestedEntries (path : Path) :
    ¬ TooDeep cappedSearch (.folder nestedEntries) path := by
  have hrecursive : cappedSearch.recursive = true := rfl
  rw [tooDeep_iff wellOrdered_nestedEntries, hrecursive, placesBelow_nestedEntries]
  simp only [List.exists_mem_cons_iff, List.not_mem_nil, false_and, exists_false, or_false]
  rintro (⟨hclosed, -⟩ | ⟨hclosed, -⟩ | ⟨hclosed, -⟩ | ⟨hclosed, -⟩) <;>
    exact absurd hclosed (by decide)

/-- The folder comes before the file whose name starts with the folder's, although a slash comes
after a dot. -/
theorem run_discovers_nested :
    nestedTree.find cappedSearch.directory = .ok (.folder nestedEntries) ∧
      WellOrdered (.folder nestedEntries) ∧ (∀ n ∈ cappedSearch.cap, 1 ≤ n) ∧
      (Discovery.run cappedSearch nestedTree).run.value =
        .ok [⟨"suite/cart/total.py"⟩, ⟨"suite/cart.py"⟩] ∧
      ∃ files : List Path,
        (∀ path, path ∈ files ↔ Sought cappedSearch (.folder nestedEntries) path) ∧
        files.Pairwise (·.key < ·.key) ∧ files.Nodup ∧
        (∀ path, ¬ InTheWay cappedSearch (.folder nestedEntries) files path) ∧
        found cappedSearch files = .ok [⟨"suite/cart/total.py"⟩, ⟨"suite/cart.py"⟩] := by
  have hfind : nestedTree.find cappedSearch.directory = .ok (.folder nestedEntries) := by rfl
  have hcap : ∀ n ∈ cappedSearch.cap, 1 ≤ n := by decide
  have hvalue : (Discovery.run cappedSearch nestedTree).run.value =
      .ok [⟨"suite/cart/total.py"⟩, ⟨"suite/cart.py"⟩] := by
    have hvisits : FileTree.visitsOf true cappedSearch.directory nestedEntries =
        [.folder ⟨"suite/cart"⟩, .file ⟨"suite/cart/total.py"⟩, .file ⟨"suite/cart.py"⟩,
          .file ⟨"suite/readme.md"⟩] := by
      unfold nestedEntries
      simp only [FileTree.visitsOf]
      decide
    have hrecursive : cappedSearch.recursive = true := rfl
    rw [value_run_of_find hfind, hrecursive, hvisits]
    decide
  obtain ⟨files, hfiles, hsorted, hnodup, hfree, -⟩ :=
    run_discovers hfind wellOrdered_nestedEntries hcap
  have hway (path : Path) : ¬ InTheWay cappedSearch (.folder nestedEntries) files path := fun h =>
    not_tooDeep_nestedEntries path h.tooDeep
  refine ⟨hfind, wellOrdered_nestedEntries, hcap, hvalue, files, hfiles, hsorted, hnodup, hway, ?_⟩
  rw [← hfree hway, hvalue]

/-! ## A folder with a long path -/

/-- The path of the folder `suite` behind `n` single dots. -/
def dottedSuite (n : ℕ) : Path :=
  ⟨(List.replicate n ("./" : Text)).flatten ++ "suite"⟩

def longName : Text :=
  List.replicate 200 'a'

def longEntries : List (Text × FileTree) :=
  [(longName, .folder [("cart.py", .file (.text []))])]

def longTree : FileTree :=
  .folder [("tmp", .folder [("/", .folder [("suite", .folder longEntries)])])]

def dottedSearch : Discovery.Search where
  directory := dottedSuite 2000
  dialect := .annotatedFunction

lemma wellOrdered_longEntries : WellOrdered (.folder longEntries) := by
  refine .folder (by decide) (by decide) ?_
  simp only [longEntries, List.forall_mem_cons]
  refine ⟨.folder (by decide) (by decide) ?_, by simp⟩
  simp only [List.forall_mem_cons]
  exact ⟨.file _, by simp⟩

lemma spelling_dottedSuite_succ (n : ℕ) :
    (dottedSuite (n + 1)).spelling = '.' :: '/' :: (dottedSuite n).spelling := by
  unfold dottedSuite
  rw [List.replicate_succ, List.flatten_cons]
  rfl

lemma utf8Size_dottedSuite (n : ℕ) : Text.utf8Size (dottedSuite n).spelling = 2 * n + 5 := by
  induction n with
  | zero => rfl
  | succ n ih =>
    have hlead : ('.' : Char).utf8Size = 1 ∧ ('/' : Char).utf8Size = 1 := ⟨rfl, rfl⟩
    rw [spelling_dottedSuite_succ, utf8Size_cons, utf8Size_cons, ih, hlead.1, hlead.2]
    omega

lemma zero_notMem_dottedSuite (n : ℕ) : '\x00' ∉ (dottedSuite n).spelling := by
  induction n with
  | zero => decide
  | succ n ih =>
    rw [spelling_dottedSuite_succ]
    simpa using ih

/-- Single dots lead nowhere. -/
lemma follow_dottedSuite (n : ℕ) :
    longTree.follow FileTree.home ((dottedSuite n).spelling.splitOn '/') =
      .ok (FileTree.home ++ [("suite" : Text)]) := by
  induction n with
  | zero => rfl
  | succ n ih =>
    have hpieces : (dottedSuite (n + 1)).spelling.splitOn '/' =
        ("." : Text) :: (dottedSuite n).spelling.splitOn '/' := by
      rw [spelling_dottedSuite_succ]
      exact List.splitOn_append_cons_self ['.'] (dottedSuite n).spelling
    rw [hpieces, ← ih]
    rfl

lemma find_dottedSuite {n : ℕ} (hn : 2 * n + 5 ≤ FileTree.maxPathBytes) :
    longTree.find (dottedSuite n) = .ok (.folder longEntries) := by
  have hstart : FileTree.start (dottedSuite n) = FileTree.home := by
    cases n with
    | zero => rfl
    | succ n =>
      rw [FileTree.start, Path.isAbsolute, spelling_dottedSuite_succ]
      rfl
  have hne : (dottedSuite n).spelling ≠ [] := by
    intro hnil
    have hsize := utf8Size_dottedSuite n
    rw [hnil] at hsize
    cases hsize
  have hlocate : longTree.locate (dottedSuite n) = .ok (FileTree.home ++ [("suite" : Text)]) := by
    rw [locate_eq_ok_iff, utf8Size_dottedSuite, hstart]
    exact ⟨zero_notMem_dottedSuite n, hne, hn, follow_dottedSuite n⟩
  unfold FileTree.find
  rw [hlocate]
  rfl

lemma utf8Size_le_join (here relative : Path) (h : relative.isAbsolute = false) :
    Text.utf8Size here.spelling + Text.utf8Size relative.spelling ≤
      Text.utf8Size (here.join relative).spelling := by
  rw [Path.join, if_neg (by rw [h]; decide)]
  split_ifs
  · rw [utf8Size_append]
  · rw [utf8Size_append, utf8Size_append]
    omega

/-- The walk cannot enter the folder with the file, since its path is too long. -/
theorem run_discovers_dotted :
    longTree.find dottedSearch.directory = .ok (.folder longEntries) ∧
      WellOrdered (.folder longEntries) ∧ (∀ n ∈ dottedSearch.cap, 1 ≤ n) ∧
      ¬ ∃ files : List Path,
        (∀ path, path ∈ files ↔ Sought dottedSearch (.folder longEntries) path) ∧
        files.Pairwise (·.key < ·.key) ∧ files.Nodup ∧
        (Discovery.run dottedSearch longTree).run.value = found dottedSearch files := by
  have hfind : longTree.find dottedSearch.directory = .ok (.folder longEntries) :=
    find_dottedSuite (by decide)
  refine ⟨hfind, wellOrdered_longEntries, by decide, ?_⟩
  rintro ⟨files, -, -, -, hfound⟩
  have hlong : FileTree.maxPathBytes <
      Text.utf8Size (dottedSearch.directory.join ⟨longName⟩).spelling := by
    have hsize : Text.utf8Size dottedSearch.directory.spelling = 4005 := utf8Size_dottedSuite 2000
    have hlength : longName.length = 200 := List.length_replicate
    have hname := (utf8Size_bounds longName).1
    have hjoin := utf8Size_le_join dottedSearch.directory ⟨longName⟩ rfl
    have hlimit : FileTree.maxPathBytes = 4095 := rfl
    dsimp only at hjoin
    omega
  have hvalue : (Discovery.run dottedSearch longTree).run.value =
      .error (.traversal (dottedSearch.directory.join ⟨longName⟩) .nameTooLong) := by
    have hrecursive : dottedSearch.recursive = true := rfl
    rw [value_run_of_find hfind, longEntries, FileTree.visitsOf, hrecursive]
    rw [if_neg (by decide), if_pos hlong]
    rfl
  rw [hvalue, found] at hfound
  split_ifs at hfound
  · cases hfound
  · cases hfound

end TestCatalog.Proofs
