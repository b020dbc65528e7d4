import TestCatalog.Proofs.FoundFolders
import TestCatalog.Proofs.WrittenFiles

/-!
# Injected lines

Injection goes through the lines of a text once. The first line that declares a pending name takes
its rename, and the rename is done; every other line is kept. A folder path is dropped with its last
rename, so that no rename map that can come about holds a folder path without renames.
-/

namespace TestCatalog.Proofs

/-- The rename maps that come of the empty one when renames are added and written into texts and
files. -/
inductive Reachable : RenameMap → Prop where
  | empty : Reachable {}
  | insert {m : RenameMap} (h : Reachable m) (folder old new : Text) :
      Reachable (m.insert folder old new)
  | inject {m : RenameMap} (h : Reachable m) (d : Dialect) (filePath source : Text) :
      Reachable (d.inject filePath source m).value.2
  | renameInFile {r r' : Renaming} (h : Reachable r.renames) {d : Dialect} {path : Path}
      (hr : (Renaming.renameInFile d path r).run.value = .ok r') : Reachable r'.renames

/-- Every folder path has a rename that is pending. -/
def NoneExhausted (m : RenameMap) : Prop :=
  ∀ folder names, m.folders.get? folder = some names → names.isEmpty = false

/-! ## Changes of lines -/

/-- The name that a line declares, whatever characters end the line. -/
def declared? (d : Dialect) (line : Text) : Option Text :=
  d.nameOnLine? (Injection.content line)

/-- A line with its rename, if it takes one. -/
def changedLine (line : Text) : Option (Text × Text) → Text
  | some (old, new) => Text.replaceAll old new line
  | none => line

/-- The renames that are left below a line. -/
def leftBelow (d : Dialect) (folder : Text) (m : RenameMap) (line : Text) : RenameMap :=
  match Injection.pendingOnLine? d folder line m with
  | some (old, _) => m.erase folder old
  | none => m

/-- The renames that the lines take, one after the other. -/
def lineChanges (d : Dialect) (folder : Text) : List Text → RenameMap → List (Option (Text × Text))
  | [], _ => []
  | line :: rest, m =>
    Injection.pendingOnLine? d folder line m ::
      lineChanges d folder rest (leftBelow d folder m line)

/-- What injection makes of a source and of the renames, when the file belongs to the folder: each
line of the source takes the rename of `changes` at its place, if there is one. -/
structure FirstRenamed (d : Dialect) (folder source : Text) (m : RenameMap)
    (changes : List (Option (Text × Text))) (text : Text) (left : RenameMap) : Prop where
  length : changes.length = (Text.linesInclusive source).length
  text : text = (List.zipWith changedLine (Text.linesInclusive source) changes).flatten
  /-- A line takes a rename if it is the first one to declare a name that is pending. -/
  change : ∀ k old new, changes[k]? = some (some (old, new)) ↔
    firstDeclaring? d source old = some k ∧ m.get? folder old = some new
  pending : ∀ old, left.get? folder old =
    if (firstDeclaring? d source old).isSome then none else m.get? folder old
  dropped : left.folders.get? folder = none ↔ ∀ old, left.get? folder old = none
  other : ∀ other, other ≠ folder → left.folders.get? other = m.folders.get? other
  size : m.size = left.size + changes.countP Option.isSome

variable {d : Dialect} {folder source : Text} {m : RenameMap}

/-! ## Maps without exhausted folder paths -/

lemma folders_get?_erase (m : RenameMap) (folder old other : Text) (h : other ≠ folder) :
    (m.erase folder old).folders.get? other = m.folders.get? other := by
  unfold RenameMap.erase
  cases m.folders.get? folder with
  | none => rfl
  | some names =>
    dsimp only
    split_ifs
    · rw [get?_erase, if_neg h]
    · rw [get?_insert, if_neg h]

lemma noneExhausted_insert (h : NoneExhausted m) (folder old new : Text) :
    NoneExhausted (m.insert folder old new) := by
  intro other names hnames
  unfold RenameMap.insert at hnames
  rw [get?_insert] at hnames
  split_ifs at hnames with hsame
  · cases hnames
    exact isEmpty_insert old new
  · exact h other names hnames

lemma noneExhausted_erase (h : NoneExhausted m) (folder old : Text) :
    NoneExhausted (m.erase folder old) := by
  intro other names hnames
  by_cases hother : other = folder
  · subst hother
    unfold RenameMap.erase at hnames
    cases hfolder : m.folders.get? other with
    | none =>
      simp only [hfolder] at hnames
      cases hnames
    | some before =>
      simp only [hfolder] at hnames
      split_ifs at hnames with hempty
      · rw [get?_erase, if_pos rfl] at hnames
        cases hnames
      · rw [get?_insert, if_pos rfl] at hnames
        cases hnames
        simpa using hempty
  · rw [folders_get?_erase m folder old other hother] at hnames
    exact h other names hnames

lemma noneExhausted_leftBelow (h : NoneExhausted m) (line : Text) :
    NoneExhausted (leftBelow d folder m line) := by
  unfold leftBelow
  cases Injection.pendingOnLine? d folder line m with
  | none => exact h
  | some renamed => exact noneExhausted_erase h folder renamed.1

/-- A folder path is dropped with its last rename. -/
lemma get?_folder_eq_none_iff (h : NoneExhausted m) :
    m.folders.get? folder = none ↔ ∀ old, m.get? folder old = none := by
  unfold RenameMap.get?
  constructor
  · intro hnone old
    rw [hnone]
    rfl
  · intro hall
    cases hnames : m.folders.get? folder with
    | none => rfl
    | some names =>
      rw [hnames] at hall
      have hentries := h folder names hnames
      obtain rfl : names = {} := eq_empty_of_get? hall
      cases hentries

/-! ## One line -/

lemma pendingOnLine?_iff {line old new : Text} :
    Injection.pendingOnLine? d folder line m = some (old, new) ↔
      declared? d line = some old ∧ m.get? folder old = some new :=
  pendingOnLine?_eq_some

lemma step_eq (d : Dialect) (folder : Text) (state : Injection) (line : Text) :
    (Injection.step d folder state line).lines =
        changedLine line (Injection.pendingOnLine? d folder line state.renames) :: state.lines ∧
      (Injection.step d folder state line).renames = leftBelow d folder state.renames line := by
  unfold Injection.step leftBelow
  cases Injection.pendingOnLine? d folder line state.renames <;> exact ⟨rfl, rfl⟩

/-- A name that a line declares is no longer pending below the line; all others are as before. -/
lemma get?_leftBelow (m : RenameMap) (line old : Text) :
    (leftBelow d folder m line).get? folder old =
      if declared? d line = some old then none else m.get? folder old := by
  unfold leftBelow
  cases hline : Injection.pendingOnLine? d folder line m with
  | none =>
    dsimp only
    split_ifs with hdeclared
    · apply Option.eq_none_iff_forall_ne_some.mpr
      intro new hnew
      rw [pendingOnLine?_iff.mpr ⟨hdeclared, hnew⟩] at hline
      cases hline
    · rfl
  | some renamed =>
    obtain ⟨hdeclared, -⟩ := pendingOnLine?_iff.mp hline
    dsimp only
    rw [get?_erase_rename, hdeclared]
    simp only [true_and, Option.some_inj, eq_comm]

lemma folders_get?_leftBelow (m : RenameMap) (line other : Text) (h : other ≠ folder) :
    (leftBelow d folder m line).folders.get? other = m.folders.get? other := by
  unfold leftBelow
  cases Injection.pendingOnLine? d folder line m with
  | none => rfl
  | some renamed => exact folders_get?_erase m folder renamed.1 other h

/-! ## All lines -/

lemma noneExhausted_foldl (h : NoneExhausted m) (ls : List Text) :
    NoneExhausted (ls.foldl (leftBelow d folder) m) := by
  induction ls generalizing m with
  | nil => exact h
  | cons line ls ih => exact ih (noneExhausted_leftBelow h line)

lemma get?_foldl_leftBelow (m : RenameMap) (ls : List Text) (old : Text) :
    (ls.foldl (leftBelow d folder) m).get? folder old =
      if ∃ line ∈ ls, declared? d line = some old then none else m.get? folder old := by
  induction ls generalizing m with
  | nil => simp
  | cons line ls ih =>
    rw [List.foldl_cons, ih, get?_leftBelow]
    by_cases hline : declared? d line = some old
    · simp [hline]
    · simp [hline]

lemma folders_get?_foldl (m : RenameMap) (ls : List Text) (other : Text) (h : other ≠ folder) :
    (ls.foldl (leftBelow d folder) m).folders.get? other = m.folders.get? other := by
  induction ls generalizing m with
  | nil => rfl
  | cons line ls ih => rw [List.foldl_cons, ih, folders_get?_leftBelow m line other h]

lemma length_lineChanges (ls : List Text) (m : RenameMap) :
    (lineChanges d folder ls m).length = ls.length := by
  induction ls generalizing m with
  | nil => rfl
  | cons line ls ih => rw [lineChanges, List.length_cons, List.length_cons, ih]

lemma getElem?_lineChanges (ls : List Text) (m : RenameMap) (k : ℕ) :
    (lineChanges d folder ls m)[k]? = ls[k]?.map fun line =>
      Injection.pendingOnLine? d folder line ((ls.take k).foldl (leftBelow d folder) m) := by
  induction ls generalizing m k with
  | nil => rfl
  | cons line ls ih =>
    cases k with
    | zero => rfl
    | succ k =>
      rw [lineChanges, List.getElem?_cons_succ, List.getElem?_cons_succ, ih]
      rfl

lemma foldl_step_eq (d : Dialect) (folder : Text) (ls : List Text) (state : Injection) :
    (ls.foldl (Injection.step d folder) state).lines.reverse =
        state.lines.reverse ++
          List.zipWith changedLine ls (lineChanges d folder ls state.renames) ∧
      (ls.foldl (Injection.step d folder) state).renames =
        ls.foldl (leftBelow d folder) state.renames := by
  induction ls generalizing state with
  | nil => simp [lineChanges]
  | cons line ls ih =>
    obtain ⟨hlines, hrenames⟩ := step_eq d folder state line
    obtain ⟨hlines', hrenames'⟩ := ih (Injection.step d folder state line)
    rw [List.foldl_cons, List.foldl_cons, hlines', hrenames', hlines, hrenames, lineChanges]
    simp

/-- Injection changes the lines and leaves the renames line by line. -/
lemma inject_lines (source : Text) {filePath : Text} (h : m.folderOf? filePath = some folder) :
    (d.inject filePath source m).value =
      ((List.zipWith changedLine (Text.linesInclusive source)
          (lineChanges d folder (Text.linesInclusive source) m)).flatten,
        (Text.linesInclusive source).foldl (leftBelow d folder) m) := by
  obtain ⟨hlines, hrenames⟩ :=
    foldl_step_eq d folder (Text.linesInclusive source) { renames := m }
  rw [inject_some source h, injectionOf, hlines, hrenames]
  rfl

lemma length_substituted (ls : List Text) (m : RenameMap) :
    (substituted d folder ls m).length = (lineChanges d folder ls m).countP Option.isSome := by
  induction ls generalizing m with
  | nil => rfl
  | cons line ls ih =>
    rw [substituted, lineChanges, leftBelow]
    cases Injection.pendingOnLine? d folder line m with
    | none => exact ih m
    | some renamed =>
      rw [List.countP_cons_of_pos rfl, ← ih]
      rfl

/-! ## First declarations -/

lemma sourceLines_eq_content (source : Text) :
    sourceLines source = (Text.linesInclusive source).map Injection.content := by
  rw [sourceLines_eq, linesInclusive_eq]
  induction pieces source with
  | nil => rfl
  | cons piece ps ih =>
    cases ps with
    | nil =>
      rw [dropEmptyLast_singleton, withFeeds]
    | cons next rest =>
      have hrest := List.cons_ne_nil next rest
      rw [dropEmptyLast_cons _ hrest, withFeeds, List.map_cons, List.map_cons, ih,
        content_append_right (by simp)]

lemma firstDeclaring?_eq_some_iff {k : ℕ} {old : Text} :
    firstDeclaring? d source old = some k ↔
      ∃ line, (Text.linesInclusive source)[k]? = some line ∧ declared? d line = some old ∧
        ∀ above ∈ (Text.linesInclusive source).take k, declared? d above ≠ some old := by
  unfold firstDeclaring?
  rw [sourceLines_eq_content]
  constructor
  · intro h
    obtain ⟨hlt, hdeclares, hfirst⟩ := List.findIdx?_eq_some_iff_getElem.mp h
    rw [List.length_map] at hlt
    rw [List.getElem_map, decide_eq_true_eq] at hdeclares
    refine ⟨(Text.linesInclusive source)[k], List.getElem?_eq_getElem hlt, hdeclares, ?_⟩
    intro above habove hname
    obtain ⟨j, hj, rfl⟩ := List.mem_take_iff_getElem.mp habove
    have hnot := hfirst j (by omega)
    rw [List.getElem_map, decide_eq_true_eq] at hnot
    exact hnot hname
  · rintro ⟨line, hline, hdeclares, hfirst⟩
    obtain ⟨hlt, rfl⟩ := List.getElem?_eq_some_iff.mp hline
    apply List.findIdx?_eq_some_iff_getElem.mpr
    refine ⟨by rwa [List.length_map], ?_, fun j hj => ?_⟩
    · rw [List.getElem_map, decide_eq_true_eq]
      exact hdeclares
    · rw [List.getElem_map, decide_eq_true_eq]
      exact hfirst _ (List.mem_take_iff_getElem.mpr ⟨j, by omega, rfl⟩)

lemma isSome_firstDeclaring? {old : Text} : (firstDeclaring? d source old).isSome = true ↔
    ∃ line ∈ Text.linesInclusive source, declared? d line = some old := by
  unfold firstDeclaring?
  rw [sourceLines_eq_content, List.findIdx?_isSome]
  simp [declared?]

lemma getElem?_lineChanges_eq_some_iff {k : ℕ} {old new : Text} :
    (lineChanges d folder (Text.linesInclusive source) m)[k]? = some (some (old, new)) ↔
      firstDeclaring? d source old = some k ∧ m.get? folder old = some new := by
  rw [getElem?_lineChanges, Option.map_eq_some_iff, firstDeclaring?_eq_some_iff]
  simp only [pendingOnLine?_iff, get?_foldl_leftBelow]
  constructor
  · rintro ⟨line, hline, hdeclared, hget⟩
    split_ifs at hget with habove
    exact ⟨⟨line, hline, hdeclared, fun above hmem hname => habove ⟨above, hmem, hname⟩⟩, hget⟩
  · rintro ⟨⟨line, hline, hdeclared, hfirst⟩, hget⟩
    refine ⟨line, hline, hdeclared, ?_⟩
    rw [if_neg fun ⟨above, hmem, hname⟩ => hfirst above hmem hname]
    exact hget

/-- Injection renames the first declarations of the pending names, whatever else the map holds. -/
theorem firstRenamed_inject (hm : NoneExhausted m) {filePath : Text}
    (h : m.folderOf? filePath = some folder) (source : Text) :
    FirstRenamed d folder source m (lineChanges d folder (Text.linesInclusive source) m)
      (d.inject filePath source m).value.1 (d.inject filePath source m).value.2 := by
  have hsize := (perm_inject d filePath source m).length_eq
  rw [List.length_append, writtenRenames, h, inject_lines source h] at hsize
  rw [inject_lines source h]
  constructor
  · exact length_lineChanges _ m
  · rfl
  · intro k old new
    exact getElem?_lineChanges_eq_some_iff
  · intro old
    rw [get?_foldl_leftBelow]
    simp only [isSome_firstDeclaring?]
  · exact get?_folder_eq_none_iff (noneExhausted_foldl hm _)
  · intro other hother
    exact folders_get?_foldl m _ other hother
  · rw [RenameMap.size, hsize, length_substituted]
    rfl

/-! ## Reachable maps -/

lemma noneExhausted_inject (h : NoneExhausted m) (d : Dialect) (filePath source : Text) :
    NoneExhausted (d.inject filePath source m).value.2 := by
  cases hfolder : m.folderOf? filePath with
  | none =>
    rw [inject_none source hfolder]
    exact h
  | some folder =>
    rw [inject_lines source hfolder]
    exact noneExhausted_foldl h _

theorem Reachable.noneExhausted (h : Reachable m) : NoneExhausted m := by
  induction h with
  | empty =>
    intro folder names hnames
    cases hnames
  | insert _ folder old new ih => exact noneExhausted_insert ih folder old new
  | inject _ d filePath source ih => exact noneExhausted_inject ih d filePath source
  | @renameInFile r r' _ d path hr ih =>
    rw [value_renameInFile] at hr
    split at hr
    · cases hr
      exact ih
    · split at hr
      · cases hr
      · rename_i source _
        split_ifs at hr
        · cases hr
          exact ih
        · split at hr
          · cases hr
          · cases hr
            exact noneExhausted_inject ih d path.spelling source

lemma folderOf?_eq_none {filePath : Text}
    (h : ∀ key ∈ m.folders.keys, Text.contains key filePath = false) :
    m.folderOf? filePath = none := by
  have hkeys : (m.folders.keys.filter fun key => Text.contains key filePath) = [] := by
    apply List.filter_eq_nil_iff.mpr
    intro key hkey
    rw [h key hkey]
    exact Bool.false_ne_true
  unfold RenameMap.folderOf?
  rw [hkeys]
  rfl

/-- Injection replaces the first declarations of the pending names. Without a folder path that the
file path contains, nothing changes. Otherwise the longest such path decides: a line takes a rename
if it is the first one to declare a name that is pending there, all other lines are kept, and the
renames of the declared names are done. -/
theorem inject_first_declarations (d : Dialect) (filePath source : Text) (hm : Reachable m) :
    ((∀ key ∈ m.folders.keys, Text.contains key filePath = false) →
      (d.inject filePath source m).value = (source, m)) ∧
    ∀ folder, LastLongest folder (m.folders.keys.filter fun key => Text.contains key filePath) →
      ∃ changes, FirstRenamed d folder source m changes (d.inject filePath source m).value.1
        (d.inject filePath source m).value.2 := by
  constructor
  · intro h
    exact inject_none source (folderOf?_eq_none h)
  · intro folder hfolder
    exact ⟨_, firstRenamed_inject hm.noneExhausted (folderOf?_eq_some_iff.mpr hfolder) source⟩

def cartRenames : RenameMap :=
  ((({} : RenameMap).insert "suite" "test_NEW_pay" "test_gid_6_pay").insert "suite/cart"
    "test_NEW_pay" "test_gid_7_pay").insert "suite/cart" "test_NEW_refund" "test_gid_8_refund"

/-- The name is declared twice, and the last line has no line feed. -/
def cartSource : Text :=
  "def test_NEW_pay():\r\n    pass\ndef test_NEW_pay(again):\ndef test_NEW_ship():"

theorem inject_first_declarations_cart :
    Reachable cartRenames ∧
      LastLongest "suite/cart"
        (cartRenames.folders.keys.filter fun key => Text.contains key "suite/cart.py") ∧
      let written := (Dialect.annotatedFunction.inject "suite/cart.py" cartSource cartRenames).value
      (∃ changes, FirstRenamed .annotatedFunction "suite/cart" cartSource cartRenames changes
        written.1 written.2) ∧
      written.1 =
        "def test_gid_7_pay():\r\n    pass\ndef test_NEW_pay(again):\ndef test_NEW_ship():" ∧
      written.2 = (({} : RenameMap).insert "suite" "test_NEW_pay" "test_gid_6_pay").insert
        "suite/cart" "test_NEW_refund" "test_gid_8_refund" := by
  have hreach : Reachable cartRenames := ((Reachable.empty.insert _ _ _).insert _ _ _).insert _ _ _
  have hfolder : LastLongest "suite/cart"
      (cartRenames.folders.keys.filter fun key => Text.contains key "suite/cart.py") :=
    folderOf?_eq_some_iff.mp (by decide +kernel)
  refine ⟨hreach, hfolder, ?_, by decide +kernel, by decide +kernel⟩
  exact (inject_first_declarations .annotatedFunction "suite/cart.py" cartSource hreach).2 _ hfolder

end TestCatalog.Proofs
