import TestCatalog.Proofs.FoundFolders

/-!
# Root folders

A file below the root folder is recorded under the root's name. The root folder is found by its name,
from the left, in the path of the file: what is recorded starts at the root folder itself exactly if
no folder above it has the same name. The folder path then does not depend on where the folder
stands.
-/

namespace TestCatalog.Proofs

/-- The names of the folders above the last one. -/
def namesAbove (path : Path) : List Text :=
  (path.components.filterMap Path.Component.name?).dropLast

variable {root tree relative : Path} {rootName : Text} {below : List Text}

lemma names_concat (h : tree.fileName? = some rootName) :
    tree.components.filterMap Path.Component.name? = namesAbove tree ++ [rootName] := by
  obtain ⟨last, hlast, hname⟩ := Option.bind_eq_some_iff.mp h
  obtain ⟨above, hcomponents⟩ := List.getLast?_eq_some_iff.mp hlast
  have hsingle : [last].filterMap Path.Component.name? = [rootName] :=
    List.filterMap_cons_some hname
  rw [namesAbove, hcomponents, List.filterMap_append, hsingle, List.dropLast_concat]

lemma rootName?_of_fileName? (h : root.fileName? = some rootName) :
    root.rootName? = some rootName := by
  rw [Path.rootName?, names_concat h, List.getLast?_concat]

lemma isAbsolute_eq_false (h : ∀ component ∈ relative.components, component ≠ .root) :
    relative.isAbsolute = false := by
  by_contra habsolute
  rw [Bool.not_eq_false, Path.isAbsolute, startsWith_iff] at habsolute
  obtain ⟨rest, hspelling⟩ := habsolute
  obtain ⟨piece, pieces, hpieces⟩ := List.exists_cons_of_ne_nil (List.splitOn_ne_nil '/' rest)
  have hsplit : relative.spelling.splitOn '/' = [] :: piece :: pieces := by
    rw [← hspelling, ← hpieces]
    exact List.splitOn_append_cons_self [] rest
  refine h .root ?_ rfl
  rw [Path.components, hsplit]
  exact List.mem_append_left _ List.mem_cons_self

/-- The names of a path below a folder are those of the folder and those below it. -/
lemma names_join (h : relative.isAbsolute = false) :
    (tree.join relative).components.filterMap Path.Component.name? =
      tree.components.filterMap Path.Component.name? ++
        relative.components.filterMap Path.Component.name? := by
  have hslash (s : Text) : (s ++ '/' :: relative.spelling).splitOn '/' =
      s.splitOn '/' ++ relative.spelling.splitOn '/' :=
    List.splitOn_append_cons_self s relative.spelling
  simp only [names_eq, Path.join, h, Bool.false_eq_true, if_false]
  split_ifs with hend
  · rcases hend with hnil | hlast
    · rw [hnil]
      rfl
    · -- the slash at the end of the folder's path ends a last piece that is no name
      obtain ⟨s, hs⟩ := List.getLast?_eq_some_iff.mp hlast
      have htree : (s ++ ['/']).splitOn '/' = s.splitOn '/' ++ [[]] :=
        List.splitOn_append_cons_self s []
      rw [hs, List.append_assoc, List.singleton_append, hslash, htree]
      simp [IsPathName]
  · have hspelling : tree.spelling ++ "/" ++ relative.spelling =
        tree.spelling ++ '/' :: relative.spelling := List.append_assoc _ _ _
    rw [hspelling, hslash, List.filter_append]

lemma eq_of_join_eq {names names' : List Text} (h : ∀ name ∈ names, '/' ∉ name)
    (h' : ∀ name ∈ names', '/' ∉ name) (hne : names ≠ []) (hne' : names' ≠ [])
    (heq : Text.join "/" names = Text.join "/" names') : names = names' := by
  rw [← splitOn_join h hne, heq, splitOn_join h' hne']

lemma notMem_names {path : Path} :
    ∀ name ∈ path.components.filterMap Path.Component.name?, '/' ∉ name := by
  rw [names_eq]
  exact fun name hname => notMem_of_mem_splitOn (List.mem_filter.mp hname).1

/-- The names from the first one that is the root's. -/
def fromRootName (rootName : Text) (names : List Text) : List Text :=
  names.dropWhile (· ≠ rootName)

lemma fromRootName_eq_nil_iff {names : List Text} :
    fromRootName rootName names = [] ↔ rootName ∉ names := by
  rw [fromRootName, List.dropWhile_eq_nil_iff]
  simp only [decide_eq_true_eq]
  exact ⟨fun h hmem => h rootName hmem rfl, fun h name hname heq => h (heq ▸ hname)⟩

/-- The names of the root folder and of what is below it are never dropped. -/
lemma fromRootName_append (above : List Text) : fromRootName rootName (above ++ rootName :: below) =
    fromRootName rootName above ++ rootName :: below := by
  have hroot : (rootName :: below).dropWhile (· ≠ rootName) = rootName :: below :=
    List.dropWhile_cons_of_neg (by simp)
  rw [fromRootName, List.dropWhile_append, hroot, ← fromRootName]
  cases fromRootName rootName above with
  | nil => rfl
  | cons first rest => rfl

/-- The names of a path below the place where the root folder stands. -/
lemma names_below (htree : tree.fileName? = some rootName)
    (hrelative : relative.components = below.map Path.Component.normal) :
    (tree.join relative).components.filterMap Path.Component.name? =
      namesAbove tree ++ rootName :: below := by
  have habsolute : relative.isAbsolute = false := by
    refine isAbsolute_eq_false fun component hcomponent => ?_
    rw [hrelative] at hcomponent
    obtain ⟨name, -, rfl⟩ := List.mem_map.mp hcomponent
    exact Path.Component.noConfusion
  have hbelow : relative.components.filterMap Path.Component.name? = below := by
    rw [hrelative, List.filterMap_map]
    exact List.filterMap_some
  rw [names_join habsolute, names_concat htree, hbelow, List.append_assoc, List.singleton_append]

lemma folderBelow?_join (hroot : root.rootName? = some rootName)
    (htree : tree.fileName? = some rootName)
    (hrelative : relative.components = below.map Path.Component.normal) :
    root.folderBelow? (tree.join relative) =
      some (Text.join "/" (fromRootName rootName (namesAbove tree) ++ rootName :: below)) := by
  rw [Path.folderBelow?, hroot, Option.bind_some, names_below htree hrelative, ← fromRootName,
    fromRootName_append]
  cases fromRootName rootName (namesAbove tree) with
  | nil => rfl
  | cons first rest => rfl

/-- What is recorded of a file below the place where the root folder stands are its names from the
first one that is the root's. They start at the root folder exactly if no folder above it has the
same name, and are then the same wherever it stands. -/
theorem folderOf_join_iff (hroot : root.fileName? = some rootName)
    (htree : tree.fileName? = some rootName)
    (hrelative : relative.components = below.map Path.Component.normal) :
    root.folderBelow? (tree.join relative) =
        some (Text.join "/" (fromRootName rootName (namesAbove tree) ++ rootName :: below)) ∧
    (root.folderBelow? (tree.join relative) = some (Text.join "/" (rootName :: below)) ↔
      rootName ∉ namesAbove tree) ∧
    (rootName ∉ namesAbove tree → ∀ config : SyncConfig, config.root = some root →
      config.folderOf (tree.join relative) = .ok (Text.join "/" (rootName :: below))) := by
  have hfolder := folderBelow?_join (rootName?_of_fileName? hroot) htree hrelative
  have hiff : root.folderBelow? (tree.join relative) = some (Text.join "/" (rootName :: below)) ↔
      rootName ∉ namesAbove tree := by
    rw [hfolder, Option.some_inj, ← fromRootName_eq_nil_iff]
    constructor
    · intro htext
      have hslash : ∀ name ∈ namesAbove tree ++ rootName :: below, '/' ∉ name := by
        rw [← names_below htree hrelative]
        exact notMem_names
      obtain ⟨habove, hbelow⟩ := List.forall_mem_append.mp hslash
      have hkept : ∀ name ∈ fromRootName rootName (namesAbove tree), '/' ∉ name :=
        fun name hname => habove name ((List.dropWhile_sublist _).subset hname)
      refine List.append_left_eq_self.mp (eq_of_join_eq ?_ hbelow ?_ ?_ htext)
      · exact List.forall_mem_append.mpr ⟨hkept, hbelow⟩
      · exact List.append_ne_nil_of_right_ne_nil _ (List.cons_ne_nil _ _)
      · exact List.cons_ne_nil _ _
    · intro hnil
      rw [hnil, List.nil_append]
  refine ⟨hfolder, hiff, fun habove config hconfig => ?_⟩
  rw [SyncConfig.folderOf, hconfig]
  simp only [hiff.mpr habove]

theorem folderOf_join_login :
    let root : Path := ⟨"/work/repo/tests"⟩
    let tree : Path := ⟨"/ci/mytests/./tests/"⟩
    let relative : Path := ⟨"auth//login.py"⟩
    root.fileName? = some "tests" ∧ tree.fileName? = some "tests" ∧
      relative.components = [.normal "auth", .normal "login.py"] ∧
      ({ testsConfig with root := some root }).folderOf (tree.join relative) =
        .ok "tests/auth/login.py" := by
  intro root tree relative
  have hroot : root.fileName? = some "tests" := by rfl
  have htree : tree.fileName? = some "tests" := by rfl
  have hrelative : relative.components =
      (["auth", "login.py"] : List Text).map Path.Component.normal := by
    rfl
  exact ⟨hroot, htree, hrelative,
    (folderOf_join_iff hroot htree hrelative).2.2 (by decide) _ rfl⟩

/-- Where a folder above the root folder has the same name, what is recorded starts at that one. -/
theorem folderOf_join_nested :
    let root : Path := ⟨"/work/tests/app/tests"⟩
    root.fileName? = some "tests" ∧ (⟨"a.py"⟩ : Path).components = [.normal "a.py"] ∧
      root.folderBelow? (root.join ⟨"a.py"⟩) = some "tests/app/tests/a.py" ∧
      root.folderBelow? (root.join ⟨"a.py"⟩) ≠ some "tests/a.py" := by
  intro root
  have hfolder : root.folderBelow? (root.join ⟨"a.py"⟩) = some "tests/app/tests/a.py" := by rfl
  refine ⟨by rfl, by rfl, hfolder, ?_⟩
  rw [hfolder]
  decide

end TestCatalog.Proofs
