import Mathlib.Data.List.Induction
import TestCatalog.Proofs.ByteSizes
import TestCatalog.Proofs.Lines
import TestCatalog.Proofs.PendingRenames
import TestCatalog.Source.Extract

/-!
# Found folders

A folder path is made of the names in the path of a file, from the root folder on. It is looked up
in the path as it is spelled, where it is found if no spelled name is in its way: if it is the
longest of the folder paths that can be read off the spelling behind places that look like the root.
-/

namespace TestCatalog.Proofs

/-! ## The longest folder path -/

/-- The longest of the folder paths, and the last one of those that are as long. -/
structure LastLongest (folder : Text) (folders : List Text) : Prop where
  mem : folder ∈ folders
  size_le : ∀ other ∈ folders, Text.utf8Size other ≤ Text.utf8Size folder
  not_lt : ∀ other ∈ folders, Text.utf8Size other = Text.utf8Size folder → ¬ folder < other

lemma lastLongest_concat_of_lt {folders : List Text} {best folder : Text}
    (hbest : LastLongest best folders) (hlt : Text.utf8Size folder < Text.utf8Size best) :
    LastLongest best (folders ++ [folder]) := by
  refine ⟨List.mem_append_left _ hbest.mem, fun other hother => ?_, fun other hother => ?_⟩
  · rcases List.mem_append.mp hother with hother | hother
    · exact hbest.size_le other hother
    · rw [List.mem_singleton.mp hother]
      exact Nat.le_of_lt hlt
  · rcases List.mem_append.mp hother with hother | hother
    · exact hbest.not_lt other hother
    · rw [List.mem_singleton.mp hother]
      exact fun heq => absurd heq (Nat.ne_of_lt hlt)

lemma lastLongest_concat_of_le {folders : List Text} {folder : Text}
    (hle : ∀ other ∈ folders, Text.utf8Size other ≤ Text.utf8Size folder)
    (hlt : ∀ other ∈ folders, other < folder) : LastLongest folder (folders ++ [folder]) := by
  refine ⟨List.mem_append_right _ List.mem_cons_self, fun other hother => ?_,
    fun other hother _ => ?_⟩
  · rcases List.mem_append.mp hother with hother | hother
    · exact hle other hother
    · rw [List.mem_singleton.mp hother]
  · rcases List.mem_append.mp hother with hother | hother
    · exact Std.Asymm.asymm _ _ (hlt other hother)
    · rw [List.mem_singleton.mp hother]
      exact List.lt_irrefl folder

lemma LastLongest.unique {folders : List Text} {folder folder' : Text}
    (h : LastLongest folder folders) (h' : LastLongest folder' folders) : folder = folder' := by
  have hsize : Text.utf8Size folder = Text.utf8Size folder' :=
    Nat.le_antisymm (h'.size_le folder h.mem) (h.size_le folder' h'.mem)
  exact Std.Trichotomous.trichotomous (r := (· < · : Text → Text → Prop)) folder folder'
    (h.not_lt folder' h'.mem hsize.symm) (h'.not_lt folder h.mem hsize)

/-- Going through folder paths in their order ends with the last of the longest ones. -/
lemma foldl_longer {folders : List Text} (hsorted : folders.Pairwise (· < ·)) :
    (folders = [] ∧ folders.foldl RenameMap.longer none = none) ∨
      ∃ folder, folders.foldl RenameMap.longer none = some folder ∧ LastLongest folder folders := by
  induction folders using List.reverseRecOn with
  | nil => exact .inl ⟨rfl, rfl⟩
  | append_singleton folders folder ih =>
    obtain ⟨hfolders, -, hlt⟩ := List.pairwise_append.mp hsorted
    have hlt (other : Text) (hother : other ∈ folders) : other < folder :=
      hlt other hother folder List.mem_cons_self
    rw [List.foldl_append, List.foldl_cons, List.foldl_nil]
    right
    rcases ih hfolders with ⟨rfl, hfold⟩ | ⟨best, hfold, hbest⟩
    · rw [hfold]
      exact ⟨folder, rfl, lastLongest_concat_of_le (by simp) (by simp)⟩
    · rw [hfold, RenameMap.longer]
      split_ifs with hsize
      · exact ⟨best, rfl, lastLongest_concat_of_lt hbest hsize⟩
      · have hle (other : Text) (hother : other ∈ folders) :
            Text.utf8Size other ≤ Text.utf8Size folder :=
          (hbest.size_le other hother).trans (Nat.le_of_not_lt hsize)
        exact ⟨folder, rfl, lastLongest_concat_of_le hle hlt⟩

theorem folderOf?_eq_some_iff {m : RenameMap} {filePath folder : Text} :
    m.folderOf? filePath = some folder ↔
      LastLongest folder (m.folders.keys.filter fun key => Text.contains key filePath) := by
  have hsorted : (m.folders.keys.filter fun key => Text.contains key filePath).Pairwise (· < ·) :=
    (List.pairwise_map.mpr m.folders.sorted).filter _
  unfold RenameMap.folderOf?
  rcases foldl_longer hsorted with ⟨hnil, hfold⟩ | ⟨best, hfold, hbest⟩
  · rw [hfold, hnil]
    constructor
    · intro h
      cases h
    · intro h
      cases h.mem
  · rw [hfold, Option.some_inj]
    exact ⟨fun h => h ▸ hbest, fun h => hbest.unique h⟩

/-! ## Parts of texts -/

lemma contains_iff {needle t : Text} : Text.contains needle t = true ↔ needle <:+: t := by
  induction t with
  | nil => simp [Text.contains]
  | cons c t ih =>
    rw [Text.contains, Bool.or_eq_true, startsWith_iff, ih, List.infix_cons_iff]

/-- Joined pieces, one after the other, are joined where the last piece runs into the first one. -/
lemma join_append_join (before : List Text) (last first : Text) (after : List Text) :
    Text.join "/" (before ++ [last]) ++ Text.join "/" (first :: after) =
      Text.join "/" (before ++ (last ++ first) :: after) := by
  induction before with
  | nil =>
    cases after with
    | nil => simp [Text.join]
    | cons next after =>
      rw [List.nil_append, List.nil_append, join_cons _ _ (List.cons_ne_nil next after),
        join_cons _ _ (List.cons_ne_nil next after)]
      simp [Text.join]
  | cons piece before ih =>
    have hlast : before ++ [last] ≠ [] :=
      List.append_ne_nil_of_right_ne_nil _ (List.cons_ne_nil _ _)
    have hglued : before ++ (last ++ first) :: after ≠ [] :=
      List.append_ne_nil_of_right_ne_nil _ (List.cons_ne_nil _ _)
    rw [List.cons_append, List.cons_append, join_cons _ _ hlast, join_cons _ _ hglued, ← ih]
    simp only [List.append_assoc]

lemma join_splitOn (t : Text) : Text.join "/" (t.splitOn '/') = t :=
  List.intercalate_splitOn '/'

lemma splitOn_join {names : List Text} (h : ∀ name ∈ names, '/' ∉ name) (hne : names ≠ []) :
    (Text.join "/" names).splitOn '/' = names :=
  List.splitOn_intercalate '/' h hne

/-- The pieces of joined texts are those of both, where the last piece runs into the first one. -/
lemma splitOn_append {s t : Text} {before after : List Text} {last first : Text}
    (hs : s.splitOn '/' = before ++ [last]) (ht : t.splitOn '/' = first :: after) :
    (s ++ t).splitOn '/' = before ++ (last ++ first) :: after := by
  have hjoin : s ++ t = Text.join "/" (before ++ (last ++ first) :: after) := by
    rw [← join_append_join, ← hs, ← ht, join_splitOn, join_splitOn]
  have hbefore : ∀ piece ∈ before ++ [last], '/' ∉ piece := by
    rw [← hs]
    exact fun piece => notMem_of_mem_splitOn
  have hafter : ∀ piece ∈ first :: after, '/' ∉ piece := by
    rw [← ht]
    exact fun piece => notMem_of_mem_splitOn
  rw [hjoin]
  refine splitOn_join ?_ (by simp)
  simp only [List.forall_mem_append, List.forall_mem_cons] at hbefore hafter ⊢
  exact ⟨hbefore.1, fun hmem => (List.mem_append.mp hmem).elim hbefore.2.1 hafter.1, hafter.2⟩

/-! ## Folder paths -/

/-- Whether a piece of a path is a name. -/
def IsPathName (piece : Text) : Prop :=
  piece ≠ [] ∧ piece ≠ "." ∧ piece ≠ ".."

instance (piece : Text) : Decidable (IsPathName piece) :=
  inferInstanceAs (Decidable (_ ∧ _ ∧ _))

/-- Names from the one of the root folder on, joined by slashes. -/
def IsFolder (rootName folder : Text) : Prop :=
  ∃ names, (∀ name ∈ names, IsPathName name ∧ '/' ∉ name) ∧
    folder = Text.join "/" (rootName :: names)

lemma name?_componentOfPiece? (piece : Text) :
    (Path.componentOfPiece? piece).bind Path.Component.name? =
      if IsPathName piece then some piece else none := by
  unfold Path.componentOfPiece?
  by_cases hidle : piece = [] ∨ piece = "."
  · rcases hidle with rfl | rfl <;> rfl
  · obtain ⟨hnil, hdot⟩ := not_or.mp hidle
    by_cases hparent : piece = ".."
    · rw [hparent]
      rfl
    · have hname : IsPathName piece := ⟨hnil, hdot, hparent⟩
      rw [if_neg hidle, if_neg hparent, if_pos hname]
      rfl

lemma names_eq (path : Path) : path.components.filterMap Path.Component.name? =
    (path.spelling.splitOn '/').filter fun piece => IsPathName piece := by
  have hpieces (pieces : List Text) :
      (pieces.filterMap Path.componentOfPiece?).filterMap Path.Component.name? =
        pieces.filter fun piece => IsPathName piece := by
    have hguard : (fun piece => (Path.componentOfPiece? piece).bind Path.Component.name?) =
        Option.guard fun piece => decide (IsPathName piece) := by
      funext piece
      rw [name?_componentOfPiece?, Option.guard]
      simp only [decide_eq_true_eq]
    rw [List.filterMap_filterMap, hguard, List.filterMap_eq_filter]
  unfold Path.components
  rw [List.filterMap_append, hpieces]
  refine (congrArg (· ++ _) ?_).trans (List.nil_append _)
  split
  · rfl
  · split_ifs <;> rfl
  · rfl

variable {config : SyncConfig} {root : Path} {rootName : Text}

lemma isName_of_rootName? (h : root.rootName? = some rootName) :
    IsPathName rootName ∧ '/' ∉ rootName := by
  have hmem := List.mem_of_getLast? h
  rw [names_eq, List.mem_filter] at hmem
  exact ⟨by simpa using hmem.2, notMem_of_mem_splitOn hmem.1⟩

lemma folderOf_eq_ok_iff (hroot : config.root = some root) (hname : root.rootName? = some rootName)
    {file : Path} {folder : Text} : config.folderOf file = .ok folder ↔
      ∃ names, ((file.spelling.splitOn '/').filter fun piece => IsPathName piece).dropWhile
          (· ≠ rootName) = rootName :: names ∧ folder = Text.join "/" (rootName :: names) := by
  unfold SyncConfig.folderOf Path.folderBelow?
  rw [hroot, names_eq]
  simp only [hname, Option.bind_some]
  cases hdrop : ((file.spelling.splitOn '/').filter fun piece => IsPathName piece).dropWhile
      (· ≠ rootName) with
  | nil => simp
  | cons first names =>
    have hfirst : first = rootName := by
      have hhead := List.head?_dropWhile_not (fun piece => decide (piece ≠ rootName))
        ((file.spelling.splitOn '/').filter fun piece => IsPathName piece)
      rw [hdrop] at hhead
      simpa using hhead
    rw [hfirst]
    simp [eq_comm]

/-- The folder paths of files are those that are made of names, the first one the root's. -/
lemma exists_folderOf_iff (hroot : config.root = some root) (hname : root.rootName? = some rootName)
    {folder : Text} : (∃ file, config.folderOf file = .ok folder) ↔ IsFolder rootName folder := by
  obtain ⟨hr, hslash⟩ := isName_of_rootName? hname
  constructor
  · rintro ⟨file, hfile⟩
    obtain ⟨names, hdrop, rfl⟩ := (folderOf_eq_ok_iff hroot hname).mp hfile
    refine ⟨names, fun name hmem => ?_, rfl⟩
    have hmem : name ∈ (file.spelling.splitOn '/').filter fun piece => IsPathName piece := by
      refine (List.dropWhile_sublist fun piece => decide (piece ≠ rootName)).subset ?_
      rw [hdrop]
      exact List.mem_cons_of_mem _ hmem
    rw [List.mem_filter] at hmem
    exact ⟨by simpa using hmem.2, notMem_of_mem_splitOn hmem.1⟩
  · rintro ⟨names, hnames, rfl⟩
    refine ⟨⟨Text.join "/" (rootName :: names)⟩,
      (folderOf_eq_ok_iff hroot hname).mpr ⟨names, ?_, rfl⟩⟩
    have hall : ∀ name ∈ rootName :: names, IsPathName name ∧ '/' ∉ name :=
      List.forall_mem_cons.mpr ⟨⟨hr, hslash⟩, hnames⟩
    have hsplit : (Text.join "/" (rootName :: names)).splitOn '/' = rootName :: names :=
      splitOn_join (fun name hmem => (hall name hmem).2) (List.cons_ne_nil _ _)
    rw [hsplit, List.filter_eq_self.mpr fun name hmem => by simpa using (hall name hmem).1,
      List.dropWhile_cons_of_neg (by simp)]

/-! ## Shown folder paths -/

/-- The names at the start of the pieces. -/
def nameRun (pieces : List Text) : List Text :=
  pieces.takeWhile fun piece => IsPathName piece

/-- The folder paths that the pieces of a spelling show: behind each piece that ends as the root is
named, this name and the names that follow without a gap. -/
def shownFolders (rootName : Text) : List Text → List Text
  | [] => []
  | piece :: rest =>
    if rootName <:+ piece then
      Text.join "/" (rootName :: nameRun rest) :: shownFolders rootName rest
    else shownFolders rootName rest

lemma mem_shownFolders_iff {folder : Text} {pieces : List Text} :
    folder ∈ shownFolders rootName pieces ↔ ∃ above lead below,
      pieces = above ++ (lead ++ rootName) :: below ∧
      folder = Text.join "/" (rootName :: nameRun below) := by
  induction pieces with
  | nil => simp [shownFolders]
  | cons piece pieces ih =>
    rw [shownFolders]
    constructor
    · intro h
      split_ifs at h with hsuffix
      · rcases List.mem_cons.mp h with rfl | h
        · obtain ⟨lead, rfl⟩ := hsuffix
          exact ⟨[], lead, pieces, rfl, rfl⟩
        · obtain ⟨above, lead, below, rfl, hfolder⟩ := ih.mp h
          exact ⟨piece :: above, lead, below, rfl, hfolder⟩
      · obtain ⟨above, lead, below, rfl, hfolder⟩ := ih.mp h
        exact ⟨piece :: above, lead, below, rfl, hfolder⟩
    · rintro ⟨above, lead, below, hpieces, rfl⟩
      cases above with
      | nil =>
        obtain ⟨rfl, rfl⟩ := List.cons.inj hpieces
        rw [if_pos (List.suffix_append lead rootName)]
        exact List.mem_cons_self
      | cons first above =>
        obtain ⟨rfl, hrest⟩ := List.cons.inj hpieces
        have hmem := ih.mpr ⟨above, lead, below, hrest, rfl⟩
        split_ifs
        · exact List.mem_cons_of_mem _ hmem
        · exact hmem

lemma join_prefix_join (before : List Text) (last : Text) (after : List Text) :
    Text.join "/" (before ++ [last]) <+: Text.join "/" (before ++ last :: after) := by
  have hglued := join_append_join before last [] after
  rw [List.append_nil] at hglued
  exact ⟨_, hglued⟩

lemma prefix_join_nameRun (rootName : Text) (pieces : List Text) :
    Text.join "/" (rootName :: nameRun pieces) <+: Text.join "/" (rootName :: pieces) := by
  obtain ⟨rest, hrest⟩ := List.takeWhile_prefix (l := pieces) fun piece => decide (IsPathName piece)
  obtain ⟨before, last, hlast⟩ := List.eq_nil_or_concat (rootName :: nameRun pieces) |>.resolve_left
    (List.cons_ne_nil _ _)
  have hpieces : rootName :: pieces = before ++ last :: rest := by
    rw [← hrest, ← List.cons_append]
    show rootName :: nameRun pieces ++ rest = _
    rw [hlast, List.concat_eq_append, List.append_assoc]
    rfl
  rw [hlast, hpieces, List.concat_eq_append]
  exact join_prefix_join before last rest

/-- What a spelling shows is part of it. -/
lemma infix_of_mem_shownFolders {t folder : Text}
    (h : folder ∈ shownFolders rootName (t.splitOn '/')) : folder <:+: t := by
  obtain ⟨above, lead, below, hpieces, rfl⟩ := mem_shownFolders_iff.mp h
  have ht : t = Text.join "/" (above ++ [lead]) ++ Text.join "/" (rootName :: below) := by
    rw [join_append_join, ← hpieces, join_splitOn]
  rw [ht]
  exact (prefix_join_nameRun rootName below).isInfix.trans (List.suffix_append _ _).isInfix

lemma isFolder_of_mem_shownFolders {t folder : Text}
    (h : folder ∈ shownFolders rootName (t.splitOn '/')) : IsFolder rootName folder := by
  obtain ⟨above, lead, below, hpieces, rfl⟩ := mem_shownFolders_iff.mp h
  refine ⟨nameRun below, fun name hname => ⟨by simpa using List.mem_takeWhile_imp hname, ?_⟩, rfl⟩
  have hmem : name ∈ t.splitOn '/' := by
    rw [hpieces]
    exact List.mem_append_right _ (List.mem_cons_of_mem _ ((List.takeWhile_prefix _).subset hname))
  exact notMem_of_mem_splitOn hmem

lemma IsPathName.append {piece : Text} (h : IsPathName piece) (more : Text) :
    IsPathName (piece ++ more) := by
  obtain ⟨hnil, hdot, hdots⟩ := h
  obtain ⟨c, piece, rfl⟩ := List.exists_cons_of_ne_nil hnil
  refine ⟨List.cons_ne_nil _ _, fun heq => ?_, fun heq => ?_⟩
  · obtain ⟨rfl, hrest⟩ := List.cons.inj heq
    obtain ⟨rfl, -⟩ := List.append_eq_nil_iff.mp hrest
    exact hdot rfl
  · obtain ⟨rfl, hrest⟩ := List.cons.inj heq
    rcases List.append_eq_singleton_iff.mp hrest with ⟨rfl, -⟩ | ⟨rfl, -⟩
    · exact hdot rfl
    · exact hdots rfl

/-- A folder path that is part of a spelling starts one that the spelling shows. -/
lemma exists_shown {t folder : Text} (hname : IsPathName rootName ∧ '/' ∉ rootName)
    (hroot : rootName ∈ t.splitOn '/') (hfolder : IsFolder rootName folder)
    (hpart : folder <:+: t) :
    ∃ shown ∈ shownFolders rootName (t.splitOn '/'), folder <+: shown := by
  obtain ⟨names, hnames, rfl⟩ := hfolder
  rcases List.eq_nil_or_concat names with rfl | ⟨names, last, rfl⟩
  · obtain ⟨above, below, hpieces⟩ := List.append_of_mem hroot
    refine ⟨_, mem_shownFolders_iff.mpr ⟨above, [], below, hpieces, rfl⟩, ?_⟩
    exact join_prefix_join [] rootName (nameRun below)
  · -- the pieces around the folder path run into its first name and its last one
    rw [List.concat_eq_append] at hnames hpart ⊢
    obtain ⟨hmiddle, hlast⟩ := List.forall_mem_append.mp hnames
    have hlast := (hlast last List.mem_cons_self).1
    obtain ⟨s, e, ht⟩ := hpart
    obtain ⟨above, lead, hs⟩ :=
      List.eq_nil_or_concat (s.splitOn '/') |>.resolve_left (List.splitOn_ne_nil _ _)
    obtain ⟨more, below, he⟩ := List.exists_cons_of_ne_nil (List.splitOn_ne_nil '/' e)
    rw [List.concat_eq_append] at hs
    have hsplit : (Text.join "/" (rootName :: (names ++ [last]))).splitOn '/' =
        rootName :: names ++ [last] :=
      splitOn_join (List.forall_mem_cons.mpr ⟨hname.2, fun name hmem => (hnames name hmem).2⟩)
        (List.cons_ne_nil _ _)
    have hpieces : t.splitOn '/' =
        above ++ (lead ++ rootName) :: (names ++ (last ++ more) :: below) := by
      rw [← ht, List.append_assoc]
      exact splitOn_append hs (splitOn_append hsplit he)
    have hrun : nameRun (names ++ (last ++ more) :: below) =
        names ++ (last ++ more) :: nameRun below := by
      unfold nameRun
      rw [List.takeWhile_append_of_pos fun name hname => by simpa using (hmiddle name hname).1,
        List.takeWhile_cons_of_pos (by simpa using hlast.append more)]
    refine ⟨_, mem_shownFolders_iff.mpr ⟨above, lead, _, hpieces, rfl⟩, ?_⟩
    rw [hrun]
    exact ⟨_, join_append_join (rootName :: names) last more (nameRun below)⟩

/-! ## Found folder paths -/

lemma mem_keys_insert {m : RenameMap} {folder old new key : Text} :
    key ∈ (m.insert folder old new).folders.keys ↔ key = folder ∨ key ∈ m.folders.keys := by
  unfold RenameMap.insert SortedMap.keys
  simp only [List.mem_map, mem_entries_insert_iff]
  constructor
  · rintro ⟨entry, rfl | ⟨hentry, -⟩, rfl⟩
    · exact .inl rfl
    · exact .inr ⟨entry, hentry, rfl⟩
  · rintro (rfl | ⟨entry, hentry, rfl⟩)
    · exact ⟨_, .inl rfl, rfl⟩
    · by_cases hsame : entry.1 = folder
      · exact ⟨_, .inl rfl, hsame.symm⟩
      · exact ⟨entry, .inr ⟨hentry, hsame⟩, rfl⟩

/-- Whether the folder path is found in the spelling among all renames under folder paths. -/
def AlwaysFound (config : SyncConfig) (folder spelling : Text) : Prop :=
  ∀ m : RenameMap, folder ∈ m.folders.keys →
    (∀ key ∈ m.folders.keys, ∃ file, config.folderOf file = .ok key) →
    m.folderOf? spelling = some folder

/-- Renames under two folder paths. -/
def twoFolders (folder other : Text) : RenameMap :=
  (({} : RenameMap).insert folder [] []).insert other [] []

lemma mem_keys_twoFolders {folder other key : Text} :
    key ∈ (twoFolders folder other).folders.keys ↔ key = other ∨ key = folder := by
  rw [twoFolders, mem_keys_insert, mem_keys_insert]
  refine or_congr_right (or_iff_left ?_)
  exact List.not_mem_nil

lemma not_alwaysFound_of_ne {spelling folder other : Text}
    (hfolder : ∃ file, config.folderOf file = .ok folder)
    (hother : ∃ file, config.folderOf file = .ok other)
    (h : (twoFolders folder other).folderOf? spelling ≠ some folder) :
    ¬ AlwaysFound config folder spelling := by
  refine fun hfound => h (hfound _ (mem_keys_twoFolders.mpr (.inr rfl)) fun key hkey => ?_)
  rcases mem_keys_twoFolders.mp hkey with rfl | rfl
  · exact hother
  · exact hfolder

/-- A folder path is always found if it is the longest one that the spelling shows. -/
theorem alwaysFound_iff (hroot : config.root = some root) (hname : root.rootName? = some rootName)
    {spelling folder : Text} (hmem : rootName ∈ spelling.splitOn '/')
    (hfolder : IsFolder rootName folder) : AlwaysFound config folder spelling ↔
      LastLongest folder (shownFolders rootName (spelling.splitOn '/')) := by
  have hr := isName_of_rootName? hname
  constructor
  · intro h
    -- the folder path is found beside any other one
    have hbeside {other : Text} (hother : IsFolder rootName other) : LastLongest folder
        ((twoFolders folder other).folders.keys.filter fun key => Text.contains key spelling) := by
      refine folderOf?_eq_some_iff.mp (h _ (mem_keys_twoFolders.mpr (.inr rfl)) fun key hkey => ?_)
      refine (exists_folderOf_iff hroot hname).mpr ?_
      rcases mem_keys_twoFolders.mp hkey with rfl | rfl
      · exact hother
      · exact hfolder
    have hshown {shown : Text} (hshown : shown ∈ shownFolders rootName (spelling.splitOn '/')) :
        Text.utf8Size shown ≤ Text.utf8Size folder ∧
          (Text.utf8Size shown = Text.utf8Size folder → ¬ folder < shown) := by
      have hlongest := hbeside (isFolder_of_mem_shownFolders hshown)
      have hkey : shown ∈ (twoFolders folder shown).folders.keys.filter
          fun key => Text.contains key spelling :=
        List.mem_filter.mpr ⟨mem_keys_twoFolders.mpr (.inl rfl),
          contains_iff.mpr (infix_of_mem_shownFolders hshown)⟩
      exact ⟨hlongest.size_le shown hkey, hlongest.not_lt shown hkey⟩
    have hpart : folder <:+: spelling :=
      contains_iff.mp (List.mem_filter.mp (hbeside hfolder).mem).2
    obtain ⟨shown, hin, hprefix⟩ := exists_shown hr hmem hfolder hpart
    obtain rfl := eq_of_prefix_of_le hprefix (hshown hin).1
    exact ⟨hin, fun other hother => (hshown hother).1, fun other hother => (hshown hother).2⟩
  · intro h m hkey hkeys
    -- each folder path in the spelling starts a shown one
    have hstarts (other : Text) (hother : other ∈ m.folders.keys.filter
        fun key => Text.contains key spelling) :
        ∃ shown ∈ shownFolders rootName (spelling.splitOn '/'), other <+: shown := by
      obtain ⟨hin, hcontains⟩ := List.mem_filter.mp hother
      have hisFolder := (exists_folderOf_iff hroot hname).mp (hkeys other hin)
      exact exists_shown hr hmem hisFolder (contains_iff.mp hcontains)
    refine folderOf?_eq_some_iff.mpr ⟨?_, fun other hother => ?_, fun other hother hsize => ?_⟩
    · exact List.mem_filter.mpr ⟨hkey, contains_iff.mpr (infix_of_mem_shownFolders h.mem)⟩
    · obtain ⟨shown, hin, hprefix⟩ := hstarts other hother
      exact (utf8Size_mono hprefix).trans (h.size_le shown hin)
    · obtain ⟨shown, hin, hprefix⟩ := hstarts other hother
      obtain rfl := eq_of_prefix_of_le hprefix ((h.size_le shown hin).trans hsize.ge)
      exact h.not_lt other hin hsize

/-! ## Plain spellings -/

/-- No piece above the root folder ends as the root is named, and all pieces below it are names. -/
def PlainlySpelled (rootName : Text) (pieces : List Text) : Prop :=
  ∃ above below, pieces = above ++ rootName :: below ∧ (∀ piece ∈ above, ¬ rootName <:+ piece) ∧
    ∀ name ∈ below, IsPathName name

lemma shownFolders_append {above below : List Text} (h : ∀ piece ∈ above, ¬ rootName <:+ piece) :
    shownFolders rootName (above ++ below) = shownFolders rootName below := by
  induction above with
  | nil => rfl
  | cons piece above ih =>
    obtain ⟨hpiece, habove⟩ := List.forall_mem_cons.mp h
    rw [List.cons_append, shownFolders, if_neg hpiece, ih habove]

lemma nameRun_eq_self {names : List Text} (h : ∀ name ∈ names, IsPathName name) :
    nameRun names = names :=
  List.takeWhile_eq_self_iff.mpr fun name hname => by simpa using h name hname

/-- What is shown below the root folder is shorter than its own folder path. -/
lemma utf8Size_shown_lt (hname : rootName ≠ []) {below : List Text} {shown : Text}
    (h : shown ∈ shownFolders rootName below) :
    Text.utf8Size shown < Text.utf8Size (Text.join "/" (rootName :: below)) := by
  obtain ⟨above, lead, rest, rfl, rfl⟩ := mem_shownFolders_iff.mp h
  have hsplit : Text.join "/" (rootName :: (above ++ [lead])) ++ Text.join "/" (rootName :: rest) =
      Text.join "/" (rootName :: (above ++ (lead ++ rootName) :: rest)) :=
    join_append_join (rootName :: above) lead rootName rest
  have hpos : 0 < Text.utf8Size (Text.join "/" (rootName :: (above ++ [lead]))) := by
    rw [join_cons _ _ (by simp)]
    exact utf8Size_pos (List.append_ne_nil_of_left_ne_nil hname _)
  have hle := utf8Size_mono (prefix_join_nameRun rootName rest)
  rw [← hsplit, utf8Size_append]
  omega

lemma lastLongest_of_plain (hname : rootName ≠ []) {above below : List Text}
    (habove : ∀ piece ∈ above, ¬ rootName <:+ piece) (hbelow : ∀ name ∈ below, IsPathName name) :
    LastLongest (Text.join "/" (rootName :: below))
      (shownFolders rootName (above ++ rootName :: below)) := by
  rw [shownFolders_append habove, shownFolders, if_pos (List.suffix_refl rootName),
    nameRun_eq_self hbelow]
  refine ⟨List.mem_cons_self, List.forall_mem_cons.mpr ⟨Nat.le_refl _, fun other hother => ?_⟩,
    List.forall_mem_cons.mpr ⟨fun _ => ?_, fun other hother hsize => ?_⟩⟩
  · exact Nat.le_of_lt (utf8Size_shown_lt hname hother)
  · exact List.lt_irrefl _
  · exact absurd hsize (Nat.ne_of_lt (utf8Size_shown_lt hname hother))

lemma folder_of_plain (hroot : config.root = some root) (hname : root.rootName? = some rootName)
    {file : Path} {above below : List Text}
    (hpieces : file.spelling.splitOn '/' = above ++ rootName :: below)
    (habove : ∀ piece ∈ above, ¬ rootName <:+ piece) (hbelow : ∀ name ∈ below, IsPathName name) :
    config.folderOf file = .ok (Text.join "/" (rootName :: below)) := by
  refine (folderOf_eq_ok_iff hroot hname).mpr ⟨below, ?_, rfl⟩
  have hkept : (rootName :: below).filter (fun piece => IsPathName piece) = rootName :: below := by
    have hall : ∀ name ∈ rootName :: below, IsPathName name :=
      List.forall_mem_cons.mpr ⟨(isName_of_rootName? hname).1, hbelow⟩
    exact List.filter_eq_self.mpr fun name hmem => by simpa using hall name hmem
  rw [hpieces, List.filter_append, hkept, List.dropWhile_append_of_pos,
    List.dropWhile_cons_of_neg (by simp)]
  intro piece hpiece
  have hne : piece ≠ rootName := by
    rintro rfl
    exact habove piece (List.mem_filter.mp hpiece).1 (List.suffix_refl piece)
  simpa using hne

/-- The folder path of a file is always found in the spelling of the path of the file exactly if it
is the longest one that the spelling shows. It is found in plain spellings. -/
theorem alwaysFound_folderOf (hroot : config.root = some root) {file : Path} {folder : Text}
    (hfolder : config.folderOf file = .ok folder) : ∃ rootName, root.rootName? = some rootName ∧
      (AlwaysFound config folder file.spelling ↔
        LastLongest folder (shownFolders rootName (file.spelling.splitOn '/'))) ∧
      (PlainlySpelled rootName (file.spelling.splitOn '/') →
        AlwaysFound config folder file.spelling) := by
  obtain ⟨rootName, hname⟩ : ∃ rootName, root.rootName? = some rootName := by
    cases hname : root.rootName? with
    | none => simp [SyncConfig.folderOf, hroot, Path.folderBelow?, hname] at hfolder
    | some rootName => exact ⟨rootName, rfl⟩
  have hmem : rootName ∈ file.spelling.splitOn '/' := by
    obtain ⟨names, hdrop, -⟩ := (folderOf_eq_ok_iff hroot hname).mp hfolder
    refine (List.filter_sublist (p := fun piece => decide (IsPathName piece))).subset
      ((List.dropWhile_sublist fun piece => decide (piece ≠ rootName)).subset ?_)
    rw [hdrop]
    exact List.mem_cons_self
  have hfound := alwaysFound_iff hroot hname hmem
    ((exists_folderOf_iff hroot hname).mp ⟨file, hfolder⟩)
  refine ⟨rootName, hname, hfound, ?_⟩
  rintro ⟨above, below, hpieces, habove, hbelow⟩
  rw [folder_of_plain hroot hname hpieces habove hbelow] at hfolder
  cases hfolder
  rw [hfound, hpieces]
  exact lastLongest_of_plain (isName_of_rootName? hname).1.1 habove hbelow

def testsConfig : SyncConfig :=
  { defaultProject := "MASTER", root := some ⟨"/work/tests"⟩ }

lemma folderOf_login :
    testsConfig.folderOf ⟨"/ci/tests/auth/login.py"⟩ = .ok "tests/auth/login.py" := by
  rfl

theorem alwaysFound_folderOf_login :
    testsConfig.folderOf ⟨"/ci/tests/auth/login.py"⟩ = .ok "tests/auth/login.py" ∧
      AlwaysFound testsConfig "tests/auth/login.py" "/ci/tests/auth/login.py" := by
  have hroot : testsConfig.root = some ⟨"/work/tests"⟩ := rfl
  obtain ⟨rootName, hname, -, hplain⟩ := alwaysFound_folderOf hroot folderOf_login
  obtain rfl : rootName = "tests" := (Option.some.inj hname).symm
  refine ⟨folderOf_login, hplain ⟨[[], "ci"], ["auth", "login.py"], by rfl, ?_, ?_⟩⟩
  · decide
  · decide

/-- A folder path is not found where a slash is repeated, and another one is found where the name of
a folder above the root folder ends as the root is named. -/
theorem not_alwaysFound :
    (testsConfig.folderOf ⟨"/ci/tests//login.py"⟩ = .ok "tests/login.py" ∧
      (twoFolders "tests/login.py" "tests/login.py").folderOf? "/ci/tests//login.py" = none ∧
      ¬ AlwaysFound testsConfig "tests/login.py" "/ci/tests//login.py") ∧
    testsConfig.folderOf ⟨"/ci/mytests/b/tests/login.py"⟩ = .ok "tests/login.py" ∧
      (twoFolders "tests/login.py" "tests/b/tests/login.py").folderOf?
        "/ci/mytests/b/tests/login.py" = some "tests/b/tests/login.py" ∧
      ¬ AlwaysFound testsConfig "tests/login.py" "/ci/mytests/b/tests/login.py" := by
  have hlogin : ∃ file, testsConfig.folderOf file = .ok "tests/login.py" :=
    ⟨⟨"tests/login.py"⟩, by rfl⟩
  have hbelow : ∃ file, testsConfig.folderOf file = .ok "tests/b/tests/login.py" :=
    ⟨⟨"tests/b/tests/login.py"⟩, by rfl⟩
  have hnone : (twoFolders "tests/login.py" "tests/login.py").folderOf? "/ci/tests//login.py" =
      none := by
    rfl
  have hother : (twoFolders "tests/login.py" "tests/b/tests/login.py").folderOf?
      "/ci/mytests/b/tests/login.py" = some "tests/b/tests/login.py" := by
    rfl
  refine ⟨⟨by rfl, hnone, not_alwaysFound_of_ne hlogin hlogin ?_⟩, by rfl, hother,
    not_alwaysFound_of_ne hlogin hbelow ?_⟩
  · rw [hnone]
    exact (Option.some_ne_none _).symm
  · rw [hother]
    decide

end TestCatalog.Proofs
