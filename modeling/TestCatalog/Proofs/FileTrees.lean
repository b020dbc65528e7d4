import Mathlib.Logic.Function.Basic
import TestCatalog.Proofs.Lines
import TestCatalog.Proofs.Maps
import TestCatalog.Source.FileTree

/-!
# Laws of file trees

A file tree is told by what stands at each location. A file that can be read is replaced as a whole,
which changes no other file, and leaves every path where it led.
-/

namespace TestCatalog.Proofs

open FileTree

/-- What a file holds; a folder holds nothing. -/
def holding (t : FileTree) : Option TestCatalog.Content :=
  match t with
  | .file content => some content
  | .folder _ => none

/-- What stands at a location: nothing, a folder, or a file with its contents. -/
def standing? (t : FileTree) (location : List Text) : Option (Option TestCatalog.Content) :=
  (t.at? location).map holding

/-- What the file at a location holds. -/
def contents (t : FileTree) (location : List Text) : Option TestCatalog.Content :=
  (standing? t location).join

variable {t t' : FileTree} {name : Text} {location : List Text} {content old : TestCatalog.Content}

/-! ## Look-up -/

lemma at?_nil (t : FileTree) : t.at? [] = some t := by
  rw [at?]

lemma at?_cons (t : FileTree) (name : Text) (names : List Text) :
    t.at? (name :: names) = (t.entry? name).bind fun t => t.at? names := by
  rw [at?]

lemma at?_append (t : FileTree) (names names' : List Text) :
    t.at? (names ++ names') = (t.at? names).bind fun t => t.at? names' := by
  induction names generalizing t with
  | nil => rw [List.nil_append, at?_nil, Option.bind_some]
  | cons name names ih =>
    rw [List.cons_append, at?_cons, at?_cons]
    cases t.entry? name with
    | none => rfl
    | some t => exact ih t

lemma standing?_cons (t : FileTree) (name : Text) (names : List Text) :
    standing? t (name :: names) = (t.entry? name).bind fun t => standing? t names := by
  unfold standing?
  rw [at?_cons, Option.map_bind]
  rfl

lemma standing?_eq_file_iff :
    standing? t location = some (some content) ↔ t.at? location = some (.file content) := by
  unfold standing?
  cases t.at? location with
  | none => simp
  | some t => cases t <;> simp [holding]

lemma contents_eq_some_iff :
    contents t location = some content ↔ t.at? location = some (.file content) := by
  rw [contents, Option.join_eq_some_iff, standing?_eq_file_iff]

lemma find?_entry_eq_some (h : FileTree.entry? t name = some t') :
    t.entries.find? (fun entry => entry.1 = name) = some (name, t') := by
  obtain ⟨⟨name', t'⟩, hfind, rfl⟩ := Option.map_eq_some_iff.mp h
  obtain rfl : name' = name := by simpa using List.find?_some hfind
  exact hfind

lemma find?_key_cons {α : Type} (entry : Text × α) (l : List (Text × α)) (name : Text) :
    (entry :: l).find? (fun entry => entry.1 = name) =
      if entry.1 = name then some entry else l.find? fun entry => entry.1 = name := by
  split_ifs with h
  · exact List.find?_cons_of_pos (by simpa using h)
  · exact List.find?_cons_of_neg (by simpa using h)

/-- An inserted entry is found under its name and hides no other one, in whatever order they are. -/
lemma find?_insertEntry {α : Type} (name : Text) (v : α) (l : List (Text × α)) (name' : Text) :
    (SortedMap.insertEntry name v l).find? (fun entry => entry.1 = name') =
      if name = name' then some (name, v) else l.find? fun entry => entry.1 = name' := by
  induction l with
  | nil => exact find?_key_cons (name, v) [] name'
  | cons entry l ih =>
    obtain ⟨first, w⟩ := entry
    rw [SortedMap.insertEntry]
    by_cases hlt : name < first
    · rw [if_pos hlt, find?_key_cons]
    rw [if_neg hlt]
    by_cases hgt : first < name
    · have hne : first ≠ name := by
        rintro rfl
        exact hlt hgt
      rw [if_pos hgt, find?_key_cons, find?_key_cons, ih]
      by_cases hfirst : first = name'
      · rw [if_pos hfirst, if_pos hfirst, if_neg fun h => hne (hfirst.trans h.symm)]
      · rw [if_neg hfirst, if_neg hfirst]
    · obtain rfl : name = first :=
        Std.Trichotomous.trichotomous (r := (· < · : Text → Text → Prop)) name first hlt hgt
      rw [if_neg hgt, find?_key_cons, find?_key_cons]
      split_ifs with hname
      · rfl
      · rfl

/-! ## Replaced files -/

lemma entry?_put_cons (new t : FileTree) (name : Text) (names : List Text) (name' : Text) :
    FileTree.entry? (put new t (name :: names)) name' =
      if name = name' then some (put new ((t.entry? name).getD (.folder [])) names)
      else t.entry? name' := by
  rw [put]
  unfold entry?
  rw [entries, find?_insertEntry]
  split_ifs with h
  · rfl
  · rfl

/-- Where a file stands, another one is put in its place, and nothing else changes. -/
theorem standing?_put (h : t.at? location = some (.file old)) (new : TestCatalog.Content) :
    standing? (put (.file new) t location) =
      Function.update (standing? t) location (some (some new)) := by
  funext place
  induction location generalizing t place with
  | nil =>
    rw [at?_nil] at h
    cases h
    cases place with
    | nil =>
      rw [Function.update_self]
      rfl
    | cons name names =>
      rw [Function.update_of_ne (List.cons_ne_nil name names), standing?_cons, standing?_cons]
      rfl
  | cons name names ih =>
    rw [at?_cons] at h
    obtain ⟨below, hbelow, h⟩ := Option.bind_eq_some_iff.mp h
    cases place with
    | nil =>
      have hfolder : standing? t [] = some none := by
        cases t with
        | file content => cases hbelow
        | folder entries => rfl
      rw [Function.update_of_ne (List.cons_ne_nil name names).symm, hfolder]
      rfl
    | cons name' names' =>
      rw [standing?_cons, entry?_put_cons]
      by_cases hname : name = name'
      · subst hname
        rw [if_pos rfl, hbelow, Option.bind_some, Option.getD_some, ih h]
        by_cases hnames : names' = names
        · rw [hnames, Function.update_self, Function.update_self]
        · have hne : name :: names' ≠ name :: names := fun heq => hnames (List.cons.inj heq).2
          rw [Function.update_of_ne hnames, Function.update_of_ne hne, standing?_cons, hbelow,
            Option.bind_some]
      · have hne : name' :: names' ≠ name :: names := fun heq => hname (List.cons.inj heq).1.symm
        rw [if_neg hname, Function.update_of_ne hne, standing?_cons]

theorem contents_put (h : t.at? location = some (.file old)) (new : TestCatalog.Content) :
    contents (put (.file new) t location) = Function.update (contents t) location (some new) := by
  funext place
  unfold contents
  rw [standing?_put h]
  by_cases hplace : place = location
  · rw [hplace, Function.update_self, Function.update_self]
    rfl
  · rw [Function.update_of_ne hplace, Function.update_of_ne hplace]

/-! ## Followed paths -/

/-- Trees with the same folders and with files at the same locations. -/
def SameShape (t t' : FileTree) : Prop :=
  ∀ location, (standing? t location).map Option.isSome = (standing? t' location).map Option.isSome

lemma sameShape_put (h : t.at? location = some (.file old)) (new : TestCatalog.Content) :
    SameShape (put (.file new) t location) t := by
  intro place
  rw [standing?_put h]
  by_cases hplace : place = location
  · rw [hplace, Function.update_self, standing?_eq_file_iff.mpr h]
    rfl
  · rw [Function.update_of_ne hplace]

lemma isSome_at? (h : SameShape t t') (location : List Text) :
    (t.at? location).isSome = (t'.at? location).isSome := by
  have hlocation := congrArg Option.isSome (h location)
  rw [standing?, standing?, Option.isSome_map, Option.isSome_map, Option.isSome_map,
    Option.isSome_map] at hlocation
  exact hlocation

/-- Following a path asks of the tree where folders, files and nothing stand. -/
lemma follow_cons (t : FileTree) (here : List Text) (piece : Text) (pieces : List Text) :
    t.follow here (piece :: pieces) =
      match (standing? t here).map Option.isSome with
      | some false =>
        if piece = [] ∨ piece = "." then t.follow here pieces
        else if piece = ".." then t.follow here.dropLast pieces
        else if maxNameBytes < Text.utf8Size piece then .error .nameTooLong
        else if (t.at? (here ++ [piece])).isSome then t.follow (here ++ [piece]) pieces
        else .error .notFound
      | some true => .error .notDirectory
      | none => .error .notFound := by
  rw [follow, standing?]
  cases hhere : t.at? here with
  | none => rfl
  | some below =>
    cases below with
    | file content => rfl
    | folder entries =>
      have hentry : (entries.any fun entry => entry.1 = piece) =
          (t.at? (here ++ [piece])).isSome := by
        rw [at?_append, hhere, Option.bind_some, at?_cons, entry?, Option.isSome_bind,
          Option.any_map, FileTree.entries, ← List.isSome_find?]
        cases entries.find? fun entry => entry.1 = piece with
        | none => rfl
        | some entry => simp [at?_nil]
      simp only [hentry]
      rfl

/-- A path leads to the same place in trees of the same shape. -/
theorem follow_congr (h : SameShape t t') (here pieces : List Text) :
    t.follow here pieces = t'.follow here pieces := by
  induction pieces generalizing here with
  | nil => rfl
  | cons piece pieces ih =>
    rw [follow_cons, follow_cons, h here, isSome_at? h]
    simp only [ih]

theorem locate_congr (h : SameShape t t') (path : Path) : t.locate path = t'.locate path := by
  unfold locate
  simp only [follow_congr h]

lemma follow_append (t : FileTree) (here pieces pieces' : List Text) :
    t.follow here (pieces ++ pieces') =
      (t.follow here pieces).bind fun here => t.follow here pieces' := by
  induction pieces generalizing here with
  | nil => rfl
  | cons piece pieces ih =>
    rw [List.cons_append, follow_cons, follow_cons]
    split
    · split_ifs
      · exact ih here
      · exact ih here.dropLast
      · rfl
      · exact ih (here ++ [piece])
      · rfl
    · rfl
    · rfl

lemma at?_ne_file {name : Text} {names : List Text} {below : FileTree}
    (h : t.at? (location ++ name :: names) = some below) (content : TestCatalog.Content) :
    t.at? location ≠ some (.file content) := by
  intro hfile
  rw [at?_append, hfile, Option.bind_some, at?_cons] at h
  cases h

/-- A path to a file ends in the name of the file. -/
lemma exists_folder_of_follow {here pieces : List Text} {last : Text}
    (hfollow : t.follow here (pieces ++ [last]) = .ok location)
    (hfile : t.at? location = some (.file content)) : ∃ above entries,
      t.follow here pieces = .ok above ∧ t.at? above = some (.folder entries) ∧
      last ≠ [] ∧ last ≠ "." ∧ last ≠ ".." ∧ Text.utf8Size last ≤ maxNameBytes ∧
      location = above ++ [last] := by
  rw [follow_append] at hfollow
  cases habove : t.follow here pieces with
  | error fault =>
    rw [habove] at hfollow
    cases hfollow
  | ok above =>
    rw [habove] at hfollow
    have hlast : t.follow above [last] = .ok location := hfollow
    rw [follow] at hlast
    split at hlast
    · rename_i entries hentries
      have hends (here' : List Text) : t.follow here' [] = .ok location → location = here' :=
        fun h => (Except.ok.inj h).symm
      split_ifs at hlast with hidle hparent hlong hany
      · -- a folder stands where the path would end
        rw [hends _ hlast, hentries] at hfile
        cases hfile
      · rw [hends _ hlast] at hfile
        rcases List.eq_nil_or_concat above with rfl | ⟨above, name, rfl⟩
        · rw [List.dropLast_nil, hentries] at hfile
          cases hfile
        · rw [List.concat_eq_append] at hentries hfile
          rw [List.dropLast_concat] at hfile
          exact absurd hfile (at?_ne_file hentries content)
      · obtain ⟨hnil, hdot⟩ := not_or.mp hidle
        exact ⟨above, entries, rfl, hentries, hnil, hdot, hparent, Nat.le_of_not_lt hlong,
          hends _ hlast⟩
    · cases hlast
    · cases hlast

/-! ## Texts -/

lemma locate_eq_ok_iff {path : Path} : t.locate path = .ok location ↔
    '\x00' ∉ path.spelling ∧ path.spelling ≠ [] ∧ Text.utf8Size path.spelling ≤ maxPathBytes ∧
      t.follow (start path) (path.spelling.splitOn '/') = .ok location := by
  unfold locate checkSpelling
  split_ifs with hnul hnil hlong
  · simp [hnul, Bind.bind, Except.bind]
  · simp [hnil, Bind.bind, Except.bind]
  · simp [Nat.not_le.mpr hlong, Bind.bind, Except.bind]
  · simp [hnul, hnil, Nat.le_of_not_lt hlong, Bind.bind, Except.bind]

lemma readText_eq (t : FileTree) (path : Path) :
    t.readText path = (t.locate path).bind fun location =>
      match t.at? location with
      | some (.file (.text source)) => .ok source
      | some (.file (.bytes _)) => .error .notUtf8
      | some (.folder _) => .error .isDirectory
      | none => .error .notFound := by
  unfold readText find
  cases t.locate path with
  | error fault => rfl
  | ok location =>
    simp only [Bind.bind, Except.bind]
    cases t.at? location with
    | none => rfl
    | some below =>
      cases below with
      | folder entries => rfl
      | file content => cases content <;> rfl

lemma readText_eq_ok_iff {path : Path} {source : Text} : t.readText path = .ok source ↔
    ∃ location, t.locate path = .ok location ∧ t.at? location = some (.file (.text source)) := by
  rw [readText_eq]
  cases t.locate path with
  | error fault => simp [Except.bind]
  | ok location =>
    simp only [Except.bind, Except.ok.injEq, exists_eq_left']
    split <;> simp_all

lemma write_eq_put {path : Path} (hlocate : t.locate path = .ok location)
    (hfile : t.at? location = some (.file old)) :
    t.write path content = .ok (put (.file content) t location) := by
  obtain ⟨hnul, hnil, hlong, hfollow⟩ := locate_eq_ok_iff.mp hlocate
  obtain ⟨pieces, last, hpieces⟩ :=
    List.eq_nil_or_concat (path.spelling.splitOn '/') |>.resolve_left (List.splitOn_ne_nil _ _)
  rw [List.concat_eq_append] at hpieces
  rw [hpieces] at hfollow
  obtain ⟨above, entries, habove, hfolder, hlast, hdot, hdots, hsize, rfl⟩ :=
    exists_folder_of_follow hfollow hfile
  have hnames : ((pieces ++ [last]).reverse.dropWhile (· = [])).reverse = pieces ++ [last] := by
    simp [hlast]
  have halong : t.folderAlong (start path) pieces = .ok (above, entries) := by
    unfold folderAlong
    rw [habove]
    simp [Bind.bind, Except.bind, hfolder]
    rfl
  have hentry : entries.find? (fun entry => entry.1 = last) = some (last, .file old) := by
    rw [at?_append, hfolder, Option.bind_some, at?_cons] at hfile
    obtain ⟨below, hbelow, hfile⟩ := Option.bind_eq_some_iff.mp hfile
    rw [at?_nil, Option.some_inj] at hfile
    rw [← hfile]
    exact find?_entry_eq_some hbelow
  have hname : ¬ (last = "." ∨ last = "..") := not_or.mpr ⟨hdot, hdots⟩
  unfold write
  simp only [hnul, hnil, Nat.not_lt.mpr hlong, if_false, hpieces, hnames, List.getLast?_concat,
    List.dropLast_concat, Option.getD_some, halong, Bind.bind, Except.bind, hname,
    Nat.not_lt.mpr hsize, Nat.lt_irrefl, hentry]
  rfl

/-- A text that was read is replaced in the place where it stands, unless the path of the draft is
too long. -/
theorem writeText_of_readText {path : Path} {source : Text} (h : t.readText path = .ok source)
    (text : Text) : ∃ location, t.locate path = .ok location ∧
      t.at? location = some (.file (.text source)) ∧
      t.writeText path text =
        if canDraft path then .ok (put (.file (.text text)) t location)
        else .error .nameTooLong := by
  obtain ⟨location, hlocate, hfile⟩ := readText_eq_ok_iff.mp h
  refine ⟨location, hlocate, hfile, ?_⟩
  unfold writeText
  rw [write_eq_put hlocate hfile]

end TestCatalog.Proofs
