import TestCatalog.Proofs.Maps
import TestCatalog.Rename.Map

/-!
# Renames of one folder

A rename map that holds the renames of one folder alone is told by its names: it is empty when there
are none, and otherwise holds them under the path of the folder.
-/

namespace TestCatalog.Proofs

/-- The rename map that holds the names under one folder path. -/
def renamesUnder (folder : Text) (names : SortedMap Text Text) : RenameMap :=
  if names.isEmpty then {} else ⟨SortedMap.insert {} folder names⟩

variable {folder : Text} {names : SortedMap Text Text}

lemma entries_single {α : Type} (folder : Text) (value : α) :
    (SortedMap.insert {} folder value).entries = [(folder, value)] := by
  rw [SortedMap.entries_insert]
  rfl

lemma get?_single {α : Type} (folder : Text) (value : α) :
    (SortedMap.insert {} folder value).get? folder = some value := by
  rw [get?_eq_some_iff, entries_single]
  exact List.mem_singleton.mpr rfl

lemma insert_single {α : Type} (folder : Text) (value value' : α) :
    (SortedMap.insert {} folder value).insert folder value' = SortedMap.insert {} folder value' := by
  apply SortedMap.ext_entries
  have hirrefl : ¬ folder < folder := List.lt_irrefl folder
  rw [SortedMap.entries_insert, entries_single, entries_single, SortedMap.insertEntry,
    if_neg hirrefl, if_neg hirrefl]

lemma eq_empty_of_isEmpty (h : names.isEmpty = true) : names = {} :=
  SortedMap.ext_entries (List.isEmpty_iff.mp h)

lemma isEmpty_insert (old new : Text) : (names.insert old new).isEmpty = false := by
  have hmem : (old, new) ∈ (names.insert old new).entries := mem_entries_insert_iff.mpr (.inl rfl)
  cases h : (names.insert old new).isEmpty with
  | false => rfl
  | true =>
    rw [eq_empty_of_isEmpty h] at hmem
    cases hmem

/-! ## Operations -/

lemma insert_renamesUnder (old new : Text) :
    (renamesUnder folder names).insert folder old new =
      renamesUnder folder (names.insert old new) := by
  have hright : renamesUnder folder (names.insert old new) =
      ⟨SortedMap.insert {} folder (names.insert old new)⟩ :=
    if_neg (by rw [isEmpty_insert]; exact Bool.false_ne_true)
  rw [hright]
  unfold renamesUnder RenameMap.insert
  by_cases h : names.isEmpty = true
  · rw [if_pos h, eq_empty_of_isEmpty h]
    rfl
  · rw [if_neg h]
    simp only [get?_single, Option.getD_some, insert_single]

lemma get?_renamesUnder (old : Text) :
    (renamesUnder folder names).get? folder old = names.get? old := by
  unfold renamesUnder RenameMap.get?
  by_cases h : names.isEmpty = true
  · rw [if_pos h, eq_empty_of_isEmpty h]
    rfl
  · rw [if_neg h]
    simp only [get?_single, Option.bind_some]

lemma erase_renamesUnder (old : Text) :
    (renamesUnder folder names).erase folder old = renamesUnder folder (names.erase old) := by
  by_cases h : names.isEmpty = true
  · have hnames := eq_empty_of_isEmpty h
    subst hnames
    rfl
  · have hunder : renamesUnder folder names = ⟨SortedMap.insert {} folder names⟩ := if_neg h
    rw [hunder]
    unfold RenameMap.erase
    simp only [get?_single]
    by_cases hleft : (names.erase old).isEmpty = true
    · have herase : (SortedMap.insert {} folder names).erase folder = {} := by
        apply SortedMap.ext_entries
        have hfilter : ((SortedMap.insert {} folder names).erase folder).entries =
            (SortedMap.insert {} folder names).entries.filter fun entry => entry.1 ≠ folder := rfl
        rw [hfilter, entries_single, List.filter_cons_of_neg (by simp)]
        rfl
      rw [if_pos hleft, herase, renamesUnder, if_pos hleft]
    · rw [if_neg hleft, insert_single, renamesUnder, if_neg hleft]

lemma folderOf?_renamesUnder (names : SortedMap Text Text) {path : Text} (hpath : Text.contains folder path = true) :
    (renamesUnder folder names).folderOf? path =
      if names.isEmpty then none else some folder := by
  unfold renamesUnder
  split_ifs with h
  · rfl
  · unfold RenameMap.folderOf? SortedMap.keys
    simp only [entries_single]
    simp [hpath, RenameMap.longer]

theorem foldl_insert_eq (names : SortedMap Text Text) (new : Text → Text) (olds : List Text) :
    olds.foldl (fun m old => m.insert folder old (new old)) (renamesUnder folder names) =
      renamesUnder folder (olds.foldl (fun names old => names.insert old (new old)) names) := by
  induction olds generalizing names with
  | nil => rfl
  | cons old olds ih => rw [List.foldl_cons, insert_renamesUnder, ih, List.foldl_cons]

lemma get?_foldl_insert (new : Text → Text) (olds : List Text) {old v : Text} :
    (olds.foldl (fun names old => names.insert old (new old)) ({} : SortedMap Text Text)).get? old =
      some v ↔ old ∈ olds ∧ v = new old := by
  rw [get?_eq_some_iff, mem_foldl_insert new olds {}]
  constructor
  · rintro (⟨hold, hv⟩ | ⟨-, hin⟩)
    · exact ⟨hold, hv⟩
    · cases hin
  · exact .inl

lemma eq_empty_of_get? (h : ∀ old, names.get? old = none) : names = {} := by
  apply SortedMap.ext_entries
  refine List.eq_nil_iff_forall_not_mem.mpr fun entry hentry => ?_
  exact get?_eq_none_iff.mp (h entry.1) entry.2 hentry

end TestCatalog.Proofs
