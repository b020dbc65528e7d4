import Mathlib.Tactic.TFAE
import TestCatalog.Proofs.InjectedLines

/-!
# Reports of pending renames

A rename map that can come about holds no folder path without renames. So what is asked of the map
and of its folder paths is answered by the pending renames: whether it is empty, how many there are,
to which folder path a file belongs, and what the report says.
-/

namespace TestCatalog.Proofs

variable {m : RenameMap} {folder : Text}

/-! ## Listings -/

/-- Whether a rename is pending under the folder path. -/
def HasPending (m : RenameMap) (folder : Text) : Prop :=
  ∃ old new, m.get? folder old = some new

/-- The list of all pending renames, each of them once and in their order. -/
structure ListsPending (m : RenameMap) (renames : List Rename) : Prop where
  mem_iff : ∀ folder old new, (folder, old, new) ∈ renames ↔ m.get? folder old = some new
  once : renames.Nodup
  ordered : renames.Pairwise Before

def renameLine (old new : Text) : Text :=
  "    " ++ old ++ "  : " ++ new ++ "\n"

/-- A blank line and the folder path, if the rename above is of another one. -/
def folderHeading (above : Option Text) (folder : Text) : Text :=
  if above = some folder then [] else "\n" ++ folder ++ "\n"

/-- The renames line by line, where the rename above them is of the folder path `above`. -/
def listing : (above : Option Text) → List Rename → Text
  | _, [] => []
  | above, (folder, old, new) :: renames =>
    folderHeading above folder ++ renameLine old new ++ listing (some folder) renames

def listingReport (renames : List Rename) : Text :=
  "THE FOLLOWING TEST CASES WERE NOT FOUND OR UPDATED IN THE TEST FILE(S):\n" ++
    listing none renames

lemma listsPending_toList (m : RenameMap) : ListsPending m m.toList :=
  ⟨fun _ _ _ => mem_toList_iff, nodup_toList m, pairwise_toList m⟩

/-- Renames of the folder path above them are listed without it. -/
lemma listing_append (folder : Text) (names : List (Text × Text)) (renames : List Rename) :
    listing (some folder) (names.map (fun (old, new) => (folder, old, new)) ++ renames) =
      names.flatMap (fun (old, new) => RenameMap.renderRename old new) ++
        listing (some folder) renames := by
  induction names with
  | nil => rfl
  | cons name names ih =>
    rw [List.map_cons, List.cons_append, listing, folderHeading, if_pos rfl, ih, List.nil_append,
      List.flatMap_cons, List.append_assoc]
    rfl

/-- Folder paths that differ and all have renames are listed one below the other. -/
lemma listing_folders {above : Option Text} {folders : List (Text × SortedMap Text Text)}
    (hsorted : folders.Pairwise fun a b => a.1 < b.1) (habove : ∀ e ∈ folders, above ≠ some e.1)
    (hnames : ∀ e ∈ folders, e.2.entries ≠ []) :
    listing above (folders.flatMap fun (folder, names) =>
        names.entries.map fun (old, new) => (folder, old, new)) =
      folders.flatMap fun (folder, names) => RenameMap.renderFolder folder names := by
  induction folders generalizing above with
  | nil => rfl
  | cons entry folders ih =>
    obtain ⟨folder, names⟩ := entry
    obtain ⟨hfirst, hrest⟩ := List.pairwise_cons.mp hsorted
    obtain ⟨⟨old, new⟩, others, hentries⟩ :=
      List.exists_cons_of_ne_nil (hnames (folder, names) List.mem_cons_self)
    have hother (e : Text × SortedMap Text Text) (he : e ∈ folders) :
        some folder ≠ some e.1 := by
      intro heq
      have hlt := hfirst e he
      rw [Option.some.inj heq] at hlt
      exact List.lt_irrefl e.1 hlt
    have hbelow := ih hrest hother fun e he => hnames e (List.mem_cons_of_mem _ he)
    have hhead : above ≠ some folder := habove (folder, names) List.mem_cons_self
    rw [List.flatMap_cons, List.flatMap_cons]
    dsimp only
    rw [RenameMap.renderFolder, hentries, List.map_cons, List.cons_append, listing, folderHeading,
      if_neg hhead, listing_append, hbelow, List.flatMap_cons]
    simp only [List.append_assoc]
    rfl

/-! ## Maps without exhausted folder paths -/

lemma names_ne_nil (h : NoneExhausted m) {entry : Text × SortedMap Text Text}
    (hentry : entry ∈ m.folders.entries) : entry.2.entries ≠ [] := by
  have hnames := h entry.1 entry.2 (get?_eq_some_iff.mpr hentry)
  exact List.isEmpty_eq_false_iff.mp hnames

lemma toList_eq_nil_iff (h : NoneExhausted m) : m.toList = [] ↔ m.isEmpty = true := by
  unfold RenameMap.toList RenameMap.isEmpty SortedMap.isEmpty
  rw [List.flatMap_eq_nil_iff, List.isEmpty_iff]
  constructor
  · intro hnil
    apply List.eq_nil_iff_forall_not_mem.mpr
    intro entry hentry
    exact names_ne_nil h hentry (List.map_eq_nil_iff.mp (hnil entry hentry))
  · intro hnil
    rw [hnil]
    simp

lemma mem_keys_iff (h : NoneExhausted m) : folder ∈ m.folders.keys ↔ HasPending m folder := by
  unfold HasPending
  rw [← contains_eq_true_iff, SortedMap.contains, ← Option.ne_none_iff_isSome, Ne,
    get?_folder_eq_none_iff h, not_forall]
  simp only [← ne_eq, Option.ne_none_iff_exists']

lemma report?_eq (h : NoneExhausted m) (hm : m.isEmpty = false) :
    m.report? = some (listingReport m.toList) := by
  have habove : ∀ e ∈ m.folders.entries, none ≠ some e.1 := fun _ _ => nofun
  have hlisting := listing_folders m.folders.sorted habove fun entry => names_ne_nil h
  unfold RenameMap.report? listingReport
  rw [hm, RenameMap.toList, hlisting]
  rfl

/-- A rename map that can come about holds no folder path without renames. It is empty exactly when
no rename is pending, and exactly when there is no report; a file belongs to the longest folder path
that its own path contains, which has pending renames; and a report lists all pending renames in
their order. -/
theorem Reachable.pending_agree (h : Reachable m) :
    NoneExhausted m ∧
      [m.isEmpty = true, m.size = 0, m.report? = none].TFAE ∧
      (∀ filePath folder, m.folderOf? filePath = some folder ↔
        LastLongest folder (m.folders.keys.filter fun key => Text.contains key filePath) ∧
          HasPending m folder) ∧
      ∀ report, m.report? = some report →
        ∃ renames, ListsPending m renames ∧ report = listingReport renames := by
  have hnone := h.noneExhausted
  refine ⟨hnone, ?_, fun filePath folder => ?_, fun report hreport => ?_⟩
  · tfae_have 1 ↔ 2 := by
      rw [← toList_eq_nil_iff hnone, RenameMap.size, List.length_eq_zero_iff]
    tfae_have 1 ↔ 3 := by
      unfold RenameMap.report?
      split_ifs with hempty <;> simp [hempty]
    tfae_finish
  · rw [folderOf?_eq_some_iff]
    refine ⟨fun hlongest => ⟨hlongest, ?_⟩, And.left⟩
    exact (mem_keys_iff hnone).mp (List.mem_filter.mp hlongest.mem).1
  · have hempty : m.isEmpty = false := by
      apply Bool.eq_false_iff.mpr
      intro hempty
      rw [RenameMap.report?, if_pos hempty] at hreport
      cases hreport
    rw [report?_eq hnone hempty] at hreport
    exact ⟨m.toList, listsPending_toList m, (Option.some.inj hreport).symm⟩

/-- What is left of `cartRenames` when a file of the cart declares both of its cases. -/
def leftOfCart : RenameMap :=
  (Dialect.annotatedFunction.inject "suite/cart.py"
    "def test_NEW_pay():\ndef test_NEW_refund():\n" cartRenames).value.2

theorem Reachable.pending_agree_cart :
    Reachable leftOfCart ∧ leftOfCart.folderOf? "suite/cart.py" = some "suite" ∧
      HasPending leftOfCart "suite" ∧
      ∃ renames, ListsPending leftOfCart renames ∧ listingReport renames =
        "THE FOLLOWING TEST CASES WERE NOT FOUND OR UPDATED IN THE TEST FILE(S):\n" ++
          "\nsuite\n    test_NEW_pay  : test_gid_6_pay\n" := by
  have hcart : Reachable cartRenames := ((Reachable.empty.insert _ _ _).insert _ _ _).insert _ _ _
  have hleft : Reachable leftOfCart := hcart.inject _ _ _
  obtain ⟨-, -, hfolder, hreport⟩ := Reachable.pending_agree hleft
  have hsuite : leftOfCart.folderOf? "suite/cart.py" = some "suite" := by decide +kernel
  obtain ⟨renames, hrenames, heq⟩ := hreport
    ("THE FOLLOWING TEST CASES WERE NOT FOUND OR UPDATED IN THE TEST FILE(S):\n" ++
      "\nsuite\n    test_NEW_pay  : test_gid_6_pay\n") (by decide +kernel)
  exact ⟨hleft, hsuite, ((hfolder _ _).mp hsuite).2, renames, hrenames, heq.symm⟩

end TestCatalog.Proofs
