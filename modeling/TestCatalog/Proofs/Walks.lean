import TestCatalog.Batch.Discovery
import TestCatalog.Proofs.FileTrees
import TestCatalog.Proofs.FoundFolders

/-!
# Walks

The places below a folder are listed as a walk comes to them: the names of each folder in order, and
a folder before what stands in it. This is the order of their locations. A walk comes to one place
after the other, up to a folder that has too long a path to be entered.
-/

namespace TestCatalog.Proofs

/-! ## Ordered trees -/

/-- A tree where the entries of each folder are in the order of their names, and each name can stand
in a path. -/
inductive WellOrdered : FileTree → Prop where
  | file (content : TestCatalog.Content) : WellOrdered (.file content)
  | folder {entries : List (Text × FileTree)} (sorted : entries.Pairwise (·.1 < ·.1))
      (names : ∀ entry ∈ entries, IsPathName entry.1 ∧ '/' ∉ entry.1)
      (below : ∀ entry ∈ entries, WellOrdered entry.2) : WellOrdered (.folder entries)

variable {t : FileTree} {name : Text} {entries rest : List (Text × FileTree)}
  {location : List Text} {recursive : Bool}

lemma WellOrdered.head (h : WellOrdered (.folder ((name, t) :: rest))) : WellOrdered t := by
  cases h with
  | folder sorted names below => exact below _ List.mem_cons_self

lemma WellOrdered.tail (h : WellOrdered (.folder ((name, t) :: rest))) :
    WellOrdered (.folder rest) := by
  cases h with
  | folder sorted names below =>
    exact .folder sorted.of_cons (fun entry hentry => names entry (List.mem_cons_of_mem _ hentry))
      fun entry hentry => below entry (List.mem_cons_of_mem _ hentry)

lemma WellOrdered.lt (h : WellOrdered (.folder ((name, t) :: rest))) :
    ∀ entry ∈ rest, name < entry.1 := by
  cases h with
  | folder sorted names below => exact (List.pairwise_cons.mp sorted).1

lemma at?_folder_cons (name' : Text) (names : List Text) :
    (FileTree.folder ((name, t) :: rest)).at? (name' :: names) =
      if name = name' then t.at? names else (FileTree.folder rest).at? (name' :: names) := by
  rw [at?_cons, at?_cons, FileTree.entry?, FileTree.entry?, FileTree.entries, FileTree.entries,
    find?_key_cons]
  split_ifs
  · rfl
  · rfl

/-- The names that lead to a place in the tree can stand in a path. -/
lemma WellOrdered.names_of_at? {t t' : FileTree} (h : WellOrdered t)
    (hat : t.at? location = some t') : ∀ name ∈ location, IsPathName name ∧ '/' ∉ name := by
  induction location generalizing t with
  | nil => simp
  | cons name names ih =>
    rw [at?_cons] at hat
    obtain ⟨next, hentry, hnext⟩ := Option.bind_eq_some_iff.mp hat
    cases h with
    | file content => cases hentry
    | folder sorted names below =>
      have hmem := List.mem_of_find?_eq_some (find?_entry_eq_some hentry)
      exact List.forall_mem_cons.mpr ⟨names _ hmem, ih (below _ hmem) hnext⟩

/-! ## Places -/

/-- A location below a folder, and what stands there. -/
structure TreePlace where
  location : List Text
  tree : FileTree

/-- The place as it is located from the folder above, where `name` leads to this one. -/
def TreePlace.above (name : Text) (place : TreePlace) : TreePlace :=
  ⟨name :: place.location, place.tree⟩

/-- The places below a folder, a folder before those in it; without `recursive`, those that stand
directly in the folder. -/
def placesBelow (recursive : Bool) : List (Text × FileTree) → List TreePlace
  | [] => []
  | (name, .file content) :: rest => ⟨[name], .file content⟩ :: placesBelow recursive rest
  | (name, .folder entries) :: rest =>
    ⟨[name], .folder entries⟩ ::
      (if recursive then (placesBelow recursive entries).map (TreePlace.above name) else []) ++
      placesBelow recursive rest

variable {place : TreePlace} {below : List TreePlace}

lemma exists_above_of_mem (h : place ∈ if recursive then below.map (TreePlace.above name) else []) :
    ∃ other ∈ below, place = other.above name := by
  split_ifs at h
  · obtain ⟨other, hother, rfl⟩ := List.mem_map.mp h
    exact ⟨other, hother, rfl⟩
  · cases h

lemma mem_above_iff {name' : Text} {names : List Text} :
    ⟨name' :: names, t⟩ ∈ (if recursive then below.map (TreePlace.above name) else []) ↔
      name = name' ∧ recursive = true ∧ ⟨names, t⟩ ∈ below := by
  constructor
  · intro h
    obtain ⟨⟨location, tree⟩, hother, heq⟩ := exists_above_of_mem h
    cases heq
    refine ⟨rfl, ?_, hother⟩
    by_contra hdirect
    rw [if_neg hdirect] at h
    cases h
  · rintro ⟨rfl, hrecursive, hmem⟩
    rw [if_pos hrecursive]
    exact List.mem_map_of_mem hmem

lemma exists_entry_of_mem (h : place ∈ placesBelow recursive entries) :
    ∃ entry ∈ entries, ∃ names, place.location = entry.1 :: names := by
  induction entries with
  | nil =>
    rw [placesBelow] at h
    cases h
  | cons entry rest ih =>
    obtain ⟨name, t⟩ := entry
    have hrest (h : place ∈ placesBelow recursive rest) :
        ∃ entry ∈ (name, t) :: rest, ∃ names, place.location = entry.1 :: names := by
      obtain ⟨entry, hentry, hlocation⟩ := ih h
      exact ⟨entry, List.mem_cons_of_mem _ hentry, hlocation⟩
    cases t with
    | file content =>
      rw [placesBelow, List.mem_cons] at h
      rcases h with rfl | h
      · exact ⟨_, List.mem_cons_self, [], rfl⟩
      · exact hrest h
    | folder entries =>
      rw [placesBelow, List.mem_append, List.mem_cons] at h
      rcases h with (rfl | h) | h
      · exact ⟨_, List.mem_cons_self, [], rfl⟩
      · obtain ⟨other, -, rfl⟩ := exists_above_of_mem h
        exact ⟨_, List.mem_cons_self, other.location, rfl⟩
      · exact hrest h

lemma nil_notMem_placesBelow : ⟨[], t⟩ ∉ placesBelow recursive entries := by
  intro h
  obtain ⟨entry, -, names, hnames⟩ := exists_entry_of_mem h
  cases hnames

/-- What stands below an entry comes before all that comes after the entry. -/
lemma WellOrdered.cons_lt (h : WellOrdered (.folder ((name, t) :: rest)))
    (hmem : place ∈ placesBelow recursive rest) (names : List Text) :
    name :: names < place.location := by
  obtain ⟨entry, hentry, names', hlocation⟩ := exists_entry_of_mem hmem
  rw [hlocation]
  exact List.cons_lt_cons_iff.mpr (.inl (h.lt entry hentry))

/-- The places are listed in the order of their locations. -/
theorem placesBelow_sorted (recursive : Bool) (h : WellOrdered (.folder entries)) :
    (placesBelow recursive entries).Pairwise (·.location < ·.location) := by
  -- what stands in a folder comes as one block, and the names keep the blocks apart
  induction entries using placesBelow.induct with
  | case1 =>
    rw [placesBelow]
    exact .nil
  | case2 name content rest ih =>
    rw [placesBelow]
    exact .cons (fun place hplace => h.cons_lt hplace []) (ih h.tail)
  | case3 name entries rest ihbelow ih =>
    rw [placesBelow]
    refine List.pairwise_append.mpr ⟨.cons (fun place hplace => ?_) ?_, ih h.tail, ?_⟩
    · obtain ⟨other, hother, rfl⟩ := exists_above_of_mem hplace
      obtain ⟨entry, -, names, hlocation⟩ := exists_entry_of_mem hother
      rw [TreePlace.above, hlocation]
      exact List.cons_lt_cons_iff.mpr (.inr ⟨rfl, List.nil_lt_cons _ _⟩)
    · split_ifs
      · refine (ihbelow h.head).map _ fun other other' hlt => ?_
        exact List.cons_lt_cons_iff.mpr (.inr ⟨rfl, hlt⟩)
      · exact .nil
    · intro place hplace after hafter
      rcases List.mem_cons.mp hplace with rfl | hplace
      · exact h.cons_lt hafter []
      · obtain ⟨other, -, rfl⟩ := exists_above_of_mem hplace
        exact h.cons_lt hafter other.location

lemma WellOrdered.notMem (h : WellOrdered (.folder ((name, t) :: rest))) (names : List Text)
    (t' : FileTree) : ⟨name :: names, t'⟩ ∉ placesBelow recursive rest := fun hmem =>
  List.lt_irrefl _ (h.cons_lt hmem names)

/-- What is listed stands where it is said to stand, and all that stands there is listed. -/
theorem mem_placesBelow_iff (h : WellOrdered (.folder entries)) {t' : FileTree} :
    ⟨location, t'⟩ ∈ placesBelow recursive entries ↔ location ≠ [] ∧
      (recursive = true ∨ location.length = 1) ∧
      (FileTree.folder entries).at? location = some t' := by
  cases location with
  | nil => exact iff_of_false nil_notMem_placesBelow fun hnil => hnil.1 rfl
  | cons name' names =>
    induction entries using placesBelow.induct generalizing name' names with
    | case1 => simp [placesBelow, at?_cons, FileTree.entry?, FileTree.entries]
    | case2 name content rest ih =>
      rw [placesBelow, List.mem_cons, at?_folder_cons]
      split_ifs with hname
      · subst hname
        rw [or_iff_left (h.notMem names t')]
        cases names <;> simp [at?_nil, at?_cons, FileTree.entry?, FileTree.entries, eq_comm]
      · have hother : ¬ (⟨name' :: names, t'⟩ : TreePlace) = ⟨[name], .file content⟩ := by
          simp [Ne.symm hname]
        rw [or_iff_right hother]
        exact ih h.tail name' names
    | case3 name entries rest ihbelow ih =>
      rw [placesBelow, List.mem_append, List.mem_cons, mem_above_iff, at?_folder_cons]
      split_ifs with hname
      · -- the folder itself, or what a recursive search comes to below it
        subst hname
        rw [or_iff_left (h.notMem names t')]
        cases names with
        | nil => simp [nil_notMem_placesBelow, at?_nil, eq_comm]
        | cons name' names =>
          simp only [ihbelow h.head name' names, TreePlace.mk.injEq, List.cons.injEq, reduceCtorEq,
            List.length_cons]
          cases recursive <;> simp
      · have hself : ¬ (⟨name' :: names, t'⟩ : TreePlace) = ⟨[name], .folder entries⟩ := by
          simp [Ne.symm hname]
        rw [or_iff_right (not_or.mpr ⟨hself, fun hbelow => hname hbelow.1⟩)]
        exact ih h.tail name' names

/-! ## Visits -/

/-- The path of a location below a folder, spelled name by name. -/
def pathTo (here : Path) (location : List Text) : Path :=
  location.foldl (fun here name => here.join ⟨name⟩) here

/-- Whether a walk comes to a folder here that it would enter if its path were not too long. -/
def TreePlace.isClosed (recursive : Bool) (here : Path) (place : TreePlace) : Bool :=
  let path := pathTo here place.location
  match place.tree with
  | .file _ => false
  | .folder _ => recursive && decide (FileTree.maxPathBytes < Text.utf8Size path.spelling)

/-- The visits of a walk to places one after the other, up to a folder that cannot be entered. -/
inductive Walked (recursive : Bool) (here : Path) :
    List TreePlace → List FileTree.Visit → Prop where
  | done : Walked recursive here [] []
  | file (location : List Text) (content : TestCatalog.Content) {below : List TreePlace}
      {visits : List FileTree.Visit} (rest : Walked recursive here below visits) :
      Walked recursive here (⟨location, .file content⟩ :: below)
        (.file (pathTo here location) :: visits)
  | folder {location : List Text} {entries : List (Text × FileTree)} {below : List TreePlace}
      {visits : List FileTree.Visit}
      (hopen : TreePlace.isClosed recursive here ⟨location, .folder entries⟩ = false)
      (rest : Walked recursive here below visits) :
      Walked recursive here (⟨location, .folder entries⟩ :: below)
        (.folder (pathTo here location) :: visits)
  | closed {location : List Text} {entries : List (Text × FileTree)}
      (hclosed : TreePlace.isClosed recursive here ⟨location, .folder entries⟩ = true)
      (below : List TreePlace) (visits : List FileTree.Visit) :
      Walked recursive here (⟨location, .folder entries⟩ :: below)
        (.folder (pathTo here location) :: .closed (pathTo here location) :: visits)

section Visits

variable {here : Path} {below' : List TreePlace} {visits visits' : List FileTree.Visit}

lemma Walked.append (h : Walked recursive here below visits)
    (h' : Walked recursive here below' visits') :
    Walked recursive here (below ++ below') (visits ++ visits') := by
  induction h with
  | done => exact h'
  | file location content rest ih => exact .file location content ih
  | folder hopen rest ih => exact .folder hopen ih
  | closed hclosed below visits => exact .closed hclosed _ _

/-- The same visits seen from the folder above. -/
lemma Walked.above (h : Walked recursive (here.join ⟨name⟩) below visits) :
    Walked recursive here (below.map (TreePlace.above name)) visits := by
  induction h with
  | done => exact .done
  | file location content rest ih => exact .file (name :: location) content ih
  | @folder location entries below visits hopen rest ih =>
    have hopen : TreePlace.isClosed recursive here ⟨name :: location, .folder entries⟩ = false :=
      hopen
    exact .folder hopen ih
  | @closed location entries hclosed below visits =>
    have hclosed : TreePlace.isClosed recursive here ⟨name :: location, .folder entries⟩ = true :=
      hclosed
    exact .closed hclosed _ _

/-- A walk comes to the listed places, one after the other. -/
theorem walked_visitsOf (recursive : Bool) (entries : List (Text × FileTree)) (here : Path) :
    Walked recursive here (placesBelow recursive entries)
      (FileTree.visitsOf recursive here entries) := by
  induction entries using placesBelow.induct generalizing here with
  | case1 =>
    rw [placesBelow, FileTree.visitsOf]
    exact .done
  | case2 name content rest ih =>
    rw [placesBelow, FileTree.visitsOf]
    exact .file [name] content (ih here)
  | case3 name entries rest ihbelow ih =>
    rw [placesBelow, FileTree.visitsOf]
    cases recursive with
    | false =>
      have hopen : TreePlace.isClosed false here ⟨[name], .folder entries⟩ = false := rfl
      exact .folder hopen (ih here)
    | true =>
      simp only [Bool.not_true, Bool.false_eq_true, if_false, if_true]
      split_ifs with hsize
      · have hclosed : TreePlace.isClosed true here ⟨[name], .folder entries⟩ = true :=
          decide_eq_true hsize
        exact .closed hclosed _ _
      · have hopen : TreePlace.isClosed true here ⟨[name], .folder entries⟩ = false :=
          decide_eq_false hsize
        exact .folder hopen ((ihbelow _).above.append (ih here))

end Visits

end TestCatalog.Proofs
