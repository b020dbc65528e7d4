import Mathlib.Data.List.Nodup
import TestCatalog.Proofs.FileTrees
import TestCatalog.Proofs.InjectedNames
import TestCatalog.Proofs.Journals
import TestCatalog.Rename.Files

/-!
# Written files

The files are visited one after the other. Each visited file holds the injected text, and the
renames that were written into its lines are no longer pending. The run stops where no rename is
left, or at a file that cannot be read or drafted, before that file or the renames change.
-/

namespace TestCatalog.Proofs

/-- A folder path, an old name in the folder, and the new name. -/
abbrev Rename := Text × Text × Text

/-- The order by folder path, and by old name under the same folder path. -/
def Before (a b : Rename) : Prop :=
  a.1 < b.1 ∨ a.1 = b.1 ∧ a.2.1 < b.2.1

/-! ## Pending renames -/

section Renames

variable {m : RenameMap} {folder old new : Text}

lemma mem_toList_iff : (folder, old, new) ∈ m.toList ↔ m.get? folder old = some new := by
  unfold RenameMap.toList RenameMap.get?
  rw [List.mem_flatMap, Option.bind_eq_some_iff]
  constructor
  · rintro ⟨⟨folder', names⟩, hfolder, hname⟩
    obtain ⟨⟨old', new'⟩, hname, heq⟩ := List.mem_map.mp hname
    cases heq
    exact ⟨names, get?_eq_some_iff.mpr hfolder, get?_eq_some_iff.mpr hname⟩
  · rintro ⟨names, hfolder, hname⟩
    exact ⟨(folder, names), get?_eq_some_iff.mp hfolder,
      List.mem_map.mpr ⟨(old, new), get?_eq_some_iff.mp hname, rfl⟩⟩

lemma pairwise_toList (m : RenameMap) : m.toList.Pairwise Before := by
  unfold RenameMap.toList
  apply List.pairwise_flatMap.mpr
  constructor
  · intro entry _
    apply List.Pairwise.map _ _ entry.2.sorted
    exact fun a b hlt => .inr ⟨rfl, hlt⟩
  · apply m.folders.sorted.imp
    intro entry entry' hlt rename hrename rename' hrename'
    obtain ⟨_, _, rfl⟩ := List.mem_map.mp hrename
    obtain ⟨_, _, rfl⟩ := List.mem_map.mp hrename'
    exact .inl hlt

lemma nodup_toList (m : RenameMap) : m.toList.Nodup := by
  apply (pairwise_toList m).imp
  rintro rename rename' hbefore rfl
  rcases hbefore with hlt | ⟨-, hlt⟩
  · exact List.lt_irrefl _ hlt
  · exact List.lt_irrefl _ hlt

/-- An erased rename is no longer pending, and all others are. -/
lemma get?_erase_rename (m : RenameMap) (folder old folder' old' : Text) :
    (m.erase folder old).get? folder' old' =
      if folder' = folder ∧ old' = old then none else m.get? folder' old' := by
  unfold RenameMap.get?
  cases hfolder : m.folders.get? folder with
  | none =>
    have herase : m.erase folder old = m := by
      rw [RenameMap.erase, hfolder]
    rw [herase]
    split_ifs with h
    · rw [h.1, hfolder]
      rfl
    · rfl
  | some names =>
    have herase : (m.erase folder old).folders.get? folder' =
        if folder' = folder then
          if (names.erase old).isEmpty then none else some (names.erase old)
        else m.folders.get? folder' := by
      rw [RenameMap.erase, hfolder]
      dsimp only
      split_ifs with hempty hsame hsame
      · exact (get?_erase _ _ _).trans (if_pos hsame)
      · exact (get?_erase _ _ _).trans (if_neg hsame)
      · exact (get?_insert _ _ _ _).trans (if_pos hsame)
      · exact (get?_insert _ _ _ _).trans (if_neg hsame)
    rw [herase]
    by_cases hsame : folder' = folder
    · have hleft : (if (names.erase old).isEmpty then none else some (names.erase old)).bind
          (fun names => names.get? old') = (names.erase old).get? old' := by
        split_ifs with hempty
        · rw [eq_empty_of_isEmpty hempty]
          rfl
        · rfl
      rw [if_pos hsame, hleft, get?_erase, hsame, hfolder, Option.bind_some]
      simp only [true_and]
    · rw [if_neg hsame, if_neg fun h => hsame h.1]

/-- Erasing a pending rename takes it alone out of the renames. -/
theorem perm_erase (h : m.get? folder old = some new) :
    m.toList.Perm ((m.erase folder old).toList ++ [(folder, old, new)]) := by
  have hmem (rename : Rename) : rename ∈ (m.erase folder old).toList ↔
      rename ∈ m.toList ∧ ¬ (rename.1 = folder ∧ rename.2.1 = old) := by
    obtain ⟨folder', old', new'⟩ := rename
    rw [mem_toList_iff, mem_toList_iff, get?_erase_rename]
    split_ifs with hsame
    · simp [hsame]
    · simp [hsame]
  have hnodup : ((m.erase folder old).toList ++ [(folder, old, new)]).Nodup := by
    refine List.nodup_append.mpr ⟨nodup_toList _, List.nodup_singleton _, ?_⟩
    rintro rename hrename rename' hrename' rfl
    rw [List.mem_singleton.mp hrename', hmem] at hrename
    exact hrename.2 ⟨rfl, rfl⟩
  refine (List.perm_ext_iff_of_nodup (nodup_toList m) hnodup).mpr fun rename => ?_
  rw [List.mem_append, List.mem_singleton, hmem]
  constructor
  · intro hrename
    obtain ⟨folder', old', new'⟩ := rename
    by_cases hsame : folder' = folder ∧ old' = old
    · obtain ⟨rfl, rfl⟩ := hsame
      rw [mem_toList_iff, h, Option.some_inj] at hrename
      exact .inr (by rw [hrename])
    · exact .inl ⟨hrename, hsame⟩
  · rintro (hrename | rfl)
    · exact hrename.1
    · exact mem_toList_iff.mpr h

end Renames

/-! ## Injected texts -/

section Injected

variable {d : Dialect} {folder : Text}

/-- The renames that are written into the lines, one for each line that changes. -/
def substituted (d : Dialect) (folder : Text) : List Text → RenameMap → List Rename
  | [], _ => []
  | line :: rest, m =>
    match Injection.pendingOnLine? d folder line m with
    | some (old, new) => (folder, old, new) :: substituted d folder rest (m.erase folder old)
    | none => substituted d folder rest m

/-- The renames that are written into the text of a file. -/
def writtenRenames (d : Dialect) (filePath source : Text) (m : RenameMap) : List Rename :=
  match m.folderOf? filePath with
  | none => []
  | some folder => substituted d folder (Text.linesInclusive source) m

/-- Going through lines takes the renames that are written into them out of the pending ones. -/
lemma perm_foldl_step (ls : List Text) (state : Injection) :
    state.renames.toList.Perm ((ls.foldl (Injection.step d folder) state).renames.toList ++
      substituted d folder ls state.renames) := by
  induction ls generalizing state with
  | nil => rw [List.foldl_nil, substituted, List.append_nil]
  | cons line ls ih =>
    have hrest := ih (Injection.step d folder state line)
    rw [List.foldl_cons, substituted]
    cases hline : Injection.pendingOnLine? d folder line state.renames with
    | none =>
      rw [step_of_none hline] at hrest ⊢
      exact hrest
    | some renamed =>
      obtain ⟨old, new⟩ := renamed
      rw [step_of_some hline] at hrest ⊢
      refine (perm_erase (pendingOnLine?_eq_some.mp hline).2).trans ?_
      refine (hrest.append_right _).trans ?_
      rw [List.append_assoc]
      exact List.perm_append_comm.append_left _

/-- Lines into which nothing is written are kept. -/
lemma foldl_step_of_nil {ls : List Text} (state : Injection)
    (h : substituted d folder ls state.renames = []) :
    (ls.foldl (Injection.step d folder) state).lines = ls.reverse ++ state.lines ∧
      (ls.foldl (Injection.step d folder) state).renames = state.renames := by
  induction ls generalizing state with
  | nil => exact ⟨rfl, rfl⟩
  | cons line ls ih =>
    rw [substituted] at h
    cases hline : Injection.pendingOnLine? d folder line state.renames with
    | none =>
      simp only [hline] at h
      have hstep := step_of_none hline
      obtain ⟨hlines, hrenames⟩ := ih (Injection.step d folder state line) (by rwa [hstep])
      rw [List.foldl_cons, hlines, hrenames, hstep]
      simp
    | some renamed =>
      simp only [hline] at h
      cases h

lemma flatten_withFeeds {ps : List Text} (h : ps ≠ []) :
    (withFeeds ps).flatten = Text.join "\n" ps := by
  induction ps with
  | nil => exact absurd rfl h
  | cons piece ps ih =>
    cases ps with
    | nil =>
      rw [withFeeds]
      split_ifs with hpiece
      · rw [hpiece]
        rfl
      · simp [Text.join]
    | cons next rest =>
      have hnext : next :: rest ≠ [] := List.cons_ne_nil next rest
      rw [withFeeds, List.flatten_cons, ih hnext, join_cons _ _ hnext, List.append_assoc]
      rfl

lemma flatten_linesInclusive (t : Text) : (Text.linesInclusive t).flatten = t := by
  rw [linesInclusive_eq, flatten_withFeeds (pieces_ne_nil t), join_pieces]

/-- What has become of the lines of a text. -/
def injectionOf (d : Dialect) (folder source : Text) (m : RenameMap) : Injection :=
  (Text.linesInclusive source).foldl (Injection.step d folder) { renames := m }

lemma inject_none {filePath : Text} (source : Text) {m : RenameMap}
    (h : m.folderOf? filePath = none) : (d.inject filePath source m).value = (source, m) := by
  unfold Dialect.inject
  rw [h]
  rfl

lemma inject_some {filePath : Text} (source : Text) {m : RenameMap}
    (h : m.folderOf? filePath = some folder) : (d.inject filePath source m).value =
      ((injectionOf d folder source m).lines.reverse.flatten,
        (injectionOf d folder source m).renames) := by
  unfold Dialect.inject
  rw [h]
  rfl

/-- Injection takes the renames that it writes out of the pending ones, and no others. -/
theorem perm_inject (d : Dialect) (filePath source : Text) (m : RenameMap) :
    m.toList.Perm ((d.inject filePath source m).value.2.toList ++
      writtenRenames d filePath source m) := by
  unfold writtenRenames
  cases hfolder : m.folderOf? filePath with
  | none => rw [inject_none source hfolder, List.append_nil]
  | some folder =>
    rw [inject_some source hfolder]
    exact perm_foldl_step (Text.linesInclusive source) { renames := m }

/-- A text into which nothing is written is kept. -/
lemma inject_of_nil {filePath source : Text} {m : RenameMap}
    (h : writtenRenames d filePath source m = []) :
    (d.inject filePath source m).value = (source, m) := by
  unfold writtenRenames at h
  cases hfolder : m.folderOf? filePath with
  | none => exact inject_none source hfolder
  | some folder =>
    rw [hfolder] at h
    obtain ⟨hlines, hrenames⟩ := foldl_step_of_nil { renames := m } h
    rw [inject_some source hfolder, injectionOf, hlines, hrenames, List.append_nil,
      List.reverse_reverse, flatten_linesInclusive]

theorem inject_eq_iff {filePath source : Text} {m : RenameMap} :
    (d.inject filePath source m).value.2 = m ↔ writtenRenames d filePath source m = [] := by
  constructor
  · intro h
    have hlength := (perm_inject d filePath source m).length_eq
    rw [h, List.length_append] at hlength
    exact List.eq_nil_of_length_eq_zero (by omega)
  · intro h
    rw [inject_of_nil h]

end Injected

/-! ## Visited files -/

/-- What the files hold by their locations, and the renames that are pending. -/
structure Disk where
  files : List Text → Option TestCatalog.Content
  renames : RenameMap

def disk (r : Renaming) : Disk :=
  ⟨contents r.tree, r.renames⟩

/-- Where the paths lead. -/
def places (t : FileTree) (path : Path) : Option (List Text) :=
  (t.locate path).toOption

/-- One file is visited: a file without a matching folder path is passed, and any other holds the
injected text afterwards. The list tells the renames that were written. -/
inductive Visit (d : Dialect) (place : Path → Option (List Text)) (s : Disk) (path : Path) :
    List Rename → Disk → Prop where
  | passed (h : s.renames.folderOf? path.spelling = none) : Visit d place s path [] s
  | injected {location : List Text} {source : Text}
      (hfolder : (s.renames.folderOf? path.spelling).isSome = true)
      (hplace : place path = some location)
      (hsource : s.files location = some (.text source)) :
      Visit d place s path (writtenRenames d path.spelling source s.renames)
        { files := Function.update s.files location
            (some (.text (d.inject path.spelling source s.renames).value.1))
          renames := (d.inject path.spelling source s.renames).value.2 }

/-- Files are visited one after the other, each while renames are pending. -/
inductive Visits (d : Dialect) (place : Path → Option (List Text)) :
    Disk → List (Path × List Rename) → Disk → Prop where
  | done (s : Disk) : Visits d place s [] s
  | next {s s' s'' : Disk} {path : Path} {written : List Rename}
      {visits : List (Path × List Rename)} (hpending : s.renames.isEmpty = false)
      (h : Visit d place s path written s') (below : Visits d place s' visits s'') :
      Visits d place s ((path, written) :: visits) s''

/-- Why the run ended before the files that are left. -/
inductive Ended (d : Dialect) (r : Renaming) : List Path → Option RenameError → Prop where
  | done : Ended d r [] none
  | settled (left : List Path) (h : r.renames.isEmpty = true) : Ended d r left none
  | unreadable {path : Path} {reason : PathFault} (left : List Path)
      (hpending : r.renames.isEmpty = false)
      (hfolder : (r.renames.folderOf? path.spelling).isSome = true)
      (h : r.tree.readText path = .error reason) :
      Ended d r (path :: left) (some (.unreadable path reason))
  | undrafted {path : Path} {source : Text} (left : List Path)
      (hpending : r.renames.isEmpty = false)
      (hfolder : (r.renames.folderOf? path.spelling).isSome = true)
      (hsource : r.tree.readText path = .ok source)
      (hwritten : writtenRenames d path.spelling source r.renames ≠ [])
      (h : FileTree.canDraft path = false) :
      Ended d r (path :: left) (some (.unwritable path .nameTooLong))

section Visits

variable {d : Dialect} {place : Path → Option (List Text)}

lemma Visit.perm {s s' : Disk} {path : Path} {written : List Rename}
    (h : Visit d place s path written s') :
    s.renames.toList.Perm (s'.renames.toList ++ written) := by
  cases h with
  | passed h => rw [List.append_nil]
  | injected hfolder hplace hsource => exact perm_inject d _ _ _

/-- A visit changes one file, and only if renames are written. -/
lemma Visit.files_eq {s s' : Disk} {path : Path} {written : List Rename}
    (h : Visit d place s path written s') {location : List Text}
    (hlocation : written ≠ [] → place path ≠ some location) :
    s'.files location = s.files location := by
  cases h with
  | passed h => rfl
  | @injected location' source hfolder hplace hsource =>
    by_cases hwritten : writtenRenames d path.spelling source s.renames = []
    · rw [inject_of_nil hwritten, ← hsource, Function.update_eq_self]
    · have hne : location ≠ location' := by
        rintro rfl
        exact hlocation hwritten hplace
      exact Function.update_of_ne hne _ _

theorem Visits.perm {s s' : Disk} {visits : List (Path × List Rename)}
    (h : Visits d place s visits s') :
    s.renames.toList.Perm (s'.renames.toList ++ visits.flatMap Prod.snd) := by
  induction h with
  | done s => rw [List.flatMap_nil, List.append_nil]
  | @next s s' s'' path written visits hpending h below ih =>
    rw [List.flatMap_cons]
    refine h.perm.trans ((ih.append_right written).trans ?_)
    rw [List.append_assoc]
    exact List.perm_append_comm.append_left _

theorem Visits.files_eq {s s' : Disk} {visits : List (Path × List Rename)}
    (h : Visits d place s visits s') {location : List Text}
    (hlocation : ∀ visit ∈ visits, visit.2 ≠ [] → place visit.1 ≠ some location) :
    s'.files location = s.files location := by
  induction h with
  | done s => rfl
  | next hpending h below ih =>
    obtain ⟨hfirst, hrest⟩ := List.forall_mem_cons.mp hlocation
    rw [ih hrest, h.files_eq hfirst]

/-! ## Runs -/

lemma value_renameInFile (d : Dialect) (path : Path) (r : Renaming) :
    (Renaming.renameInFile d path r).run.value =
      match r.renames.folderOf? path.spelling with
      | none => .ok r
      | some _ =>
        match r.tree.readText path with
        | .error reason => .error (.unreadable path reason)
        | .ok source =>
          if (d.inject path.spelling source r.renames).value.2 = r.renames then .ok r
          else
            match r.tree.writeText path (d.inject path.spelling source r.renames).value.1 with
            | .error reason => .error (.unwritable path reason)
            | .ok tree =>
              .ok { tree, renames := (d.inject path.spelling source r.renames).value.2,
                    changed := r.changed ++ [path] } := by
  unfold Renaming.renameInFile
  cases hfolder : r.renames.folderOf? path.spelling with
  | none => rfl
  | some folder =>
    cases hread : r.tree.readText path with
    | error reason => rfl
    | ok source =>
      simp only [Option.isNone_some, Bool.false_eq_true, if_false]
      rw [run_lift_bind]
      dsimp only
      split_ifs with hsame
      · rfl
      · cases r.tree.writeText path (d.inject path.spelling source r.renames).value.1 <;> rfl

/-- One file is visited, or the run ends before it. -/
inductive FileStep (d : Dialect) (place : Path → Option (List Text)) (r : Renaming) (path : Path) :
    Except RenameError Renaming → Prop where
  | visited {r' : Renaming} (written : List Rename)
      (h : Visit d place (disk r) path written (disk r')) (hshape : SameShape r'.tree r.tree)
      (hchanged : r'.changed = r.changed ++ if written = [] then [] else [path]) :
      FileStep d place r path (.ok r')
  | ended {e : RenameError}
      (h : ∀ left, r.renames.isEmpty = false → Ended d r (path :: left) (some e)) :
      FileStep d place r path (.error e)

theorem step_renameInFile (d : Dialect) (path : Path) (r : Renaming) :
    FileStep d (places r.tree) r path (Renaming.renameInFile d path r).run.value := by
  rw [value_renameInFile]
  cases hfolder : r.renames.folderOf? path.spelling with
  | none => exact .visited [] (.passed hfolder) (fun _ => rfl) (by simp)
  | some folder =>
    have hsome : (r.renames.folderOf? path.spelling).isSome = true := by rw [hfolder]; rfl
    cases hread : r.tree.readText path with
    | error reason => exact .ended fun left hpending => .unreadable left hpending hsome hread
    | ok source =>
      obtain ⟨location, hlocate, hfile, hwrite⟩ :=
        writeText_of_readText hread (d.inject path.spelling source r.renames).value.1
      have hplace : places r.tree path = some location := by rw [places, hlocate]; rfl
      have hvisit := Visit.injected (d := d) (s := disk r) hsome hplace
        (contents_eq_some_iff.mpr hfile)
      by_cases hnil : writtenRenames d path.spelling source r.renames = []
      · have hkeep : Function.update (disk r).files location (some (.text source)) =
            (disk r).files := by
          rw [← contents_eq_some_iff.mpr hfile]
          exact Function.update_eq_self _ _
        have hrenames : (disk r).renames = r.renames := rfl
        rw [hrenames, inject_of_nil hnil, hnil, hkeep] at hvisit
        simp only [inject_of_nil hnil, if_true]
        exact .visited [] hvisit (fun _ => rfl) (by simp)
      · simp only [mt inject_eq_iff.mp hnil, if_false, hwrite]
        by_cases hdraft : FileTree.canDraft path = true
        · rw [if_pos hdraft]
          refine .visited _ ?_ (sameShape_put hfile _) (by rw [if_neg hnil])
          unfold disk
          rw [contents_put hfile]
          exact hvisit
        · rw [if_neg hdraft]
          exact .ended fun left hpending =>
            .undrafted left hpending hsome hread hnil (by simpa using hdraft)

lemma value_renameInFiles_cons (d : Dialect) (path : Path) (paths : List Path) (r : Renaming) :
    (Renaming.renameInFiles d (path :: paths) r).value =
      if r.renames.isEmpty then (r, none)
      else
        match (Renaming.renameInFile d path r).run.value with
        | .ok r' => (Renaming.renameInFiles d paths r').value
        | .error e => (r, some e) := by
  rw [Renaming.renameInFiles]
  split_ifs with h
  · rfl
  · show (match (Renaming.renameInFile d path r).run.value with
      | .ok r => Renaming.renameInFiles d paths r
      | .error e => pure (r, some e) : Logged (Renaming × Option RenameError)).value = _
    cases (Renaming.renameInFile d path r).run.value <;> rfl

/-- The files are visited in order until the run ends, and those are changed into which renames were
written. -/
theorem visits_renameInFiles (paths : List Path) (r : Renaming)
    (hplace : ∀ path, places r.tree path = place path) : ∃ visits left,
      let (r', e) := (Renaming.renameInFiles d paths r).value
      paths = visits.map Prod.fst ++ left ∧ Visits d place (disk r) visits (disk r') ∧
        Ended d r' left e ∧
        r'.changed = r.changed ++ (visits.filter fun visit => visit.2 ≠ []).map Prod.fst := by
  induction paths generalizing r with
  | nil => exact ⟨[], [], rfl, .done _, .done, (List.append_nil _).symm⟩
  | cons path paths ih =>
    rw [value_renameInFiles_cons]
    cases hpending : r.renames.isEmpty with
    | true =>
      exact ⟨[], path :: paths, rfl, .done _, .settled _ hpending, (List.append_nil _).symm⟩
    | false =>
      have hstep := step_renameInFile d path r
      rw [funext hplace] at hstep
      simp only [Bool.false_eq_true, if_false]
      generalize (Renaming.renameInFile d path r).run.value = result at hstep ⊢
      cases hstep with
      | ended h =>
        exact ⟨[], path :: paths, rfl, .done _, h paths hpending, (List.append_nil _).symm⟩
      | @visited r' written h hshape hchanged =>
        have hplace' (path : Path) : places r'.tree path = place path := by
          rw [← hplace path, places, places, locate_congr hshape]
        obtain ⟨visits, left, hpaths, hvisits, hended, hall⟩ := ih r' hplace'
        refine ⟨(path, written) :: visits, left, ?_, .next hpending h hvisits, hended, ?_⟩
        · rw [List.map_cons, List.cons_append, ← hpaths]
        · rw [hall, hchanged, List.append_assoc, List.filter_cons]
          by_cases hwritten : written = []
          · rw [if_pos hwritten, if_neg (by simpa using hwritten), List.nil_append]
          · rw [if_neg hwritten, if_pos (by simpa using hwritten), List.map_cons]
            rfl

lemma value_run (d : Dialect) (paths : List Path) (t : FileTree) (m : RenameMap) :
    (Renaming.run d paths t m).value =
      (Renaming.renameInFiles d paths { tree := t, renames := m }).value := by
  unfold Renaming.run
  generalize Renaming.renameInFiles d paths { tree := t, renames := m } = done
  obtain ⟨⟨r, e⟩, journal⟩ := done
  cases e with
  | none => rfl
  | some e => rfl

/-- Files and pending renames never disagree. The files are visited in order; each visited one holds
the injected text, and the renames that were written into the visited files are those that are no
longer pending. Files into which no rename was written are as they were. -/
theorem run_visits (d : Dialect) (paths : List Path) (t : FileTree) (m : RenameMap) :
    let (r, e) := (Renaming.run d paths t m).value
    ∃ visits left, paths = visits.map Prod.fst ++ left ∧
      Visits d (places t) ⟨contents t, m⟩ visits ⟨contents r.tree, r.renames⟩ ∧
      Ended d r left e ∧
      m.toList.Perm (r.renames.toList ++ visits.flatMap Prod.snd) ∧
      m.size = r.renames.size + (visits.flatMap Prod.snd).length ∧
      r.changed = (visits.filter fun visit => visit.2 ≠ []).map Prod.fst ∧
      ∀ location, (∀ path ∈ r.changed, places t path ≠ some location) →
        contents r.tree location = contents t location := by
  obtain ⟨visits, left, hpaths, hvisits, hended, hchanged⟩ :=
    visits_renameInFiles (d := d) paths { tree := t, renames := m } fun path => rfl
  rw [value_run]
  refine ⟨visits, left, hpaths, hvisits, hended, hvisits.perm, ?_, hchanged, fun location h => ?_⟩
  · have hlength := hvisits.perm.length_eq
    rw [List.length_append] at hlength
    exact hlength
  · refine hvisits.files_eq fun visit hvisit hwritten => h visit.1 ?_
    rw [hchanged]
    refine List.mem_map_of_mem (List.mem_filter.mpr ⟨hvisit, by simpa using hwritten⟩)

end Visits

end TestCatalog.Proofs
