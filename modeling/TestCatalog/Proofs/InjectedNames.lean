import TestCatalog.Proofs.DeclaringLines
import TestCatalog.Proofs.IssuedRuns
import TestCatalog.Proofs.PendingRenames

/-!
# Injected names

Injecting the renames of some cases issues the first source line that declares each of their names,
provided that the name stands on the line as it does on a header. A name that some line declares is
then no longer pending.
-/

namespace TestCatalog.Proofs

/-- The number of the first source line that declares the name. -/
def firstDeclaring? (d : Dialect) (source name : Text) : Option ℕ :=
  (sourceLines source).findIdx? fun line => d.nameOnLine? line = some name

/-- The renames of the cases with the given names, under one folder path. -/
def issuedRenames (d : Dialect) (number : Text → ℕ) (folder : Text) (names : List Text) : RenameMap :=
  names.foldl (fun m name => m.insert folder name (issuedName d number name)) {}

/-- Whether the line is the first one to declare one of the names. -/
def Due (d : Dialect) (source : Text) (names : List Text) (line : ℕ) (name : Text) : Prop :=
  name ∈ names ∧ firstDeclaring? d source name = some line

/-- The names that no line so far declares, with the names that they are issued. -/
def Pending (d : Dialect) (number : Text → ℕ) (names before : List Text)
    (left : SortedMap Text Text) : Prop :=
  ∀ old new, left.get? old = some new ↔
    (old ∈ names ∧ ∀ line ∈ before, d.nameOnLine? line ≠ some old) ∧ new = issuedName d number old

/-- A line on which the name stands as on the header of a case without identifier. -/
def HeadLine (d : Dialect) (line name : Text) : Prop :=
  ∃ rest l z, name = freshMark d ++ rest ∧ AllBlank l ∧ line = l ++ (headLead d ++ name ++ z)

lemma findIdx?_append_cons {α : Type} (p : α → Bool) (before after : List α) (a : α) :
    (before ++ a :: after).findIdx? p = some before.length ↔
      p a = true ∧ ∀ b ∈ before, p b = false := by
  induction before with
  | nil =>
    rw [List.nil_append, List.findIdx?_cons]
    split_ifs with ha
    · simp [ha]
    · cases (List.findIdx? p after) <;> simp [ha]
  | cons b before ih =>
    rw [List.cons_append, List.findIdx?_cons]
    split_ifs with hb
    · simp [hb]
    · rw [Option.map_eq_some_iff]
      constructor
      · rintro ⟨i, hi, hlen⟩
        rw [List.length_cons, Nat.add_right_cancel_iff] at hlen
        subst hlen
        obtain ⟨ha, hbefore⟩ := ih.mp hi
        exact ⟨ha, List.forall_mem_cons.mpr ⟨by simpa using hb, hbefore⟩⟩
      · rintro ⟨ha, hbefore⟩
        exact ⟨before.length, ih.mpr ⟨ha, (List.forall_mem_cons.mp hbefore).2⟩, rfl⟩

/-! ## Pieces with their ends -/

/-- The pieces of a text with the line feeds behind them. -/
def withFeeds : List Text → List Text
  | [] => []
  | [piece] => if piece = [] then [] else [piece]
  | piece :: next :: rest => (piece ++ ['\n']) :: withFeeds (next :: rest)

lemma linesInclusive_eq (t : Text) : Text.linesInclusive t = withFeeds (pieces t) := by
  have hfeeds (ps : List Text) : ps.dropLast.map (· ++ ['\n']) ++
      (ps.getLast?.filter (· ≠ [])).toList = withFeeds ps := by
    induction ps with
    | nil => rfl
    | cons piece ps ih =>
      cases ps with
      | nil =>
        by_cases hpiece : piece = [] <;> simp [withFeeds, hpiece]
      | cons next rest =>
        rw [List.dropLast_cons_of_ne_nil (List.cons_ne_nil next rest), List.map_cons,
          List.getLast?_cons_cons, List.cons_append, ih]
        rfl
  exact hfeeds (pieces t)

variable {d : Dialect} {number : Text → ℕ} {source folder : Text} {names : List Text}

/-! ## One line -/

lemma due_iff {before after : List Text} {line name : Text}
    (hsource : sourceLines source = before ++ line :: after) :
    Due d source names before.length name ↔
      name ∈ names ∧ d.nameOnLine? line = some name ∧ ∀ l ∈ before, d.nameOnLine? l ≠ some name := by
  unfold Due firstDeclaring?
  rw [hsource, findIdx?_append_cons]
  simp

lemma pendingOnLine?_eq_some {line old new : Text} {m : RenameMap} :
    Injection.pendingOnLine? d folder line m = some (old, new) ↔
      d.nameOnLine? (Injection.content line) = some old ∧ m.get? folder old = some new := by
  have hpending : Injection.pendingOnLine? d folder line m =
      (d.nameOnLine? (Injection.content line)).bind fun old =>
        (m.get? folder old).bind fun new => some (old, new) := rfl
  rw [hpending]
  constructor
  · intro h
    obtain ⟨name, hname, h⟩ := Option.bind_eq_some_iff.mp h
    obtain ⟨new', hnew, h⟩ := Option.bind_eq_some_iff.mp h
    cases h
    exact ⟨hname, hnew⟩
  · rintro ⟨hname, hnew⟩
    rw [hname, Option.bind_some, hnew]
    rfl

lemma step_of_none {state : Injection} {line : Text}
    (h : Injection.pendingOnLine? d folder line state.renames = none) :
    Injection.step d folder state line = { state with lines := line :: state.lines } := by
  unfold Injection.step
  rw [h]

lemma step_of_some {state : Injection} {line old new : Text}
    (h : Injection.pendingOnLine? d folder line state.renames = some (old, new)) :
    Injection.step d folder state line =
      { lines := Text.replaceAll old new line :: state.lines
        renames := state.renames.erase folder old
        reports := .report (Injection.injected folder old new) :: state.reports } := by
  unfold Injection.step
  rw [h]

lemma pendingOnLine?_eq_some_iff (folder : Text) {before after : List Text} {line old new : Text}
    {left : SortedMap Text Text} (hleft : Pending d number names before left)
    (hsource : sourceLines source = before ++ Injection.content line :: after) :
    Injection.pendingOnLine? d folder line (renamesUnder folder left) = some (old, new) ↔
      Due d source names before.length old ∧ new = issuedName d number old := by
  rw [pendingOnLine?_eq_some, due_iff hsource, get?_renamesUnder, hleft]
  constructor
  · rintro ⟨hname, ⟨hmem, hfirst⟩, rfl⟩
    exact ⟨⟨hmem, hname, hfirst⟩, rfl⟩
  · rintro ⟨⟨hmem, hname, hfirst⟩, rfl⟩
    exact ⟨hname, ⟨hmem, hfirst⟩, rfl⟩

lemma pending_erase {before : List Text} {line old : Text} {left : SortedMap Text Text}
    (hleft : Pending d number names before left) (hline : d.nameOnLine? line = some old) :
    Pending d number names (before ++ [line]) (left.erase old) := by
  intro name new
  rw [get?_erase]
  by_cases hname : name = old
  · subst hname
    rw [if_pos rfl]
    constructor
    · exact fun h => absurd h (Option.some_ne_none new).symm
    · exact fun h => absurd hline (h.1.2 line (by simp))
  · have hother : d.nameOnLine? line ≠ some name := by
      rw [hline]
      exact fun h => hname (Option.some_inj.mp h).symm
    rw [if_neg hname, hleft]
    refine and_congr_left fun _ => and_congr_right fun _ => ?_
    simp [or_imp, forall_and, hother]

lemma pending_keep {before after : List Text} {line : Text} {left : SortedMap Text Text}
    (hleft : Pending d number names before left)
    (hsource : sourceLines source = before ++ line :: after)
    (hdue : ∀ name, ¬ Due d source names before.length name) :
    Pending d number names (before ++ [line]) left := by
  intro name new
  rw [hleft]
  refine and_congr_left fun _ => and_congr_right fun hmem => ?_
  have hname (hfirst : ∀ l ∈ before, d.nameOnLine? l ≠ some name) : d.nameOnLine? line ≠ some name :=
    fun h => hdue name ((due_iff hsource).mpr ⟨hmem, h, hfirst⟩)
  constructor
  · intro hfirst l hl
    rcases List.mem_append.mp hl with hl | hl
    · exact hfirst l hl
    · rw [List.mem_singleton.mp hl]
      exact hname hfirst
  · exact fun hfirst l hl => hfirst l (List.mem_append_left _ hl)

lemma HeadLine.ne_nil {line old : Text} (h : HeadLine d line old) : old ≠ [] := by
  obtain ⟨rest, -, -, rfl, -, -⟩ := h
  exact List.append_ne_nil_of_left_ne_nil (freshMark_ne_nil d) rest

/-- Replacing the name on a header line issues the line; the characters that end it are kept. -/
lemma HeadLine.issued {piece old : Text} (h : HeadLine d (Injection.content piece) old) :
    Issued d (number old) old.length piece
      (Text.replaceAll old (issuedName d number old) piece) := by
  obtain ⟨rest, l, z, hold, hl, hline⟩ := h
  obtain ⟨r, -, hr⟩ := exists_content piece
  have hnew : issuedName d number old = issuedMark d (number old) ++ rest := by
    have hassigned := assignedName_fresh d (number old) rest
    rwa [← hold] at hassigned
  have hpiece : piece = l ++ (headLead d ++ old ++ (z ++ r)) := by
    conv_lhs => rw [hr, hline]
    simp only [List.append_assoc]
  have hreplace := issued_replaceAll d (number old) rest hl (z ++ r)
  rwa [← hnew, ← hold, ← hpiece] at hreplace

/-- Replacing a name on a line leaves the line feed at its end. -/
lemma replaceAll_piece {piece feed old : Text} (hfeed : feed = [] ∨ feed = ['\n'])
    (hpiece : '\n' ∉ piece) (hname : d.nameOnLine? (Injection.content piece) = some old)
    (hold : old ≠ []) (new : Text) :
    Text.replaceAll old new (piece ++ feed) = Text.replaceAll old new piece ++ feed := by
  have hfeed' : '\n' ∉ old := by
    intro hmem
    exact hpiece (mem_of_mem_dropEndWhile ((sublist_of_nameOnLine? hname).subset hmem))
  rcases hfeed with rfl | rfl
  · rw [List.append_nil, List.append_nil]
  · exact replaceAll_concat hold hfeed' piece

/-- One line: it is kept if no name is due there, and issued otherwise. -/
lemma step_piece (folder : Text) {before after : List Text} {piece : Text} {feed : Text}
    (hfeed : feed = [] ∨ feed = ['\n']) (hpiece : '\n' ∉ piece)
    (hsource : sourceLines source = before ++ Injection.content piece :: after)
    (hheads : ∀ name, Due d source names before.length name →
      HeadLine d (Injection.content piece) name)
    {state : Injection} {left : SortedMap Text Text}
    (hstate : state.renames = renamesUnder folder left)
    (hleft : Pending d number names before left) :
    ∃ piece' left', (Injection.step d folder state (piece ++ feed)).lines =
        (piece' ++ feed) :: state.lines ∧
      (Injection.step d folder state (piece ++ feed)).renames = renamesUnder folder left' ∧
      Pending d number names (before ++ [Injection.content piece]) left' ∧ '\n' ∉ piece' ∧
      IssuedLines d number (Due d source names) before.length [piece] [piece'] := by
  have hcontent : Injection.content (piece ++ feed) = Injection.content piece := by
    refine content_append_right (fun c hc => ?_) piece
    rcases hfeed with rfl | rfl
    · cases hc
    · exact .inl (List.mem_singleton.mp hc)
  rw [← hcontent] at hsource
  cases hpending : Injection.pendingOnLine? d folder (piece ++ feed) state.renames with
  | none =>
    have hdue (name : Text) : ¬ Due d source names before.length name := by
      intro h
      have hsome := (pendingOnLine?_eq_some_iff folder hleft hsource).mpr ⟨h, rfl⟩
      rw [← hstate, hpending] at hsome
      cases hsome
    rw [step_of_none hpending, ← hcontent]
    exact ⟨piece, left, rfl, hstate, pending_keep hleft hsource hdue, hpiece, .keep hdue (.nil _)⟩
  | some renamed =>
    obtain ⟨old, new⟩ := renamed
    have hdeclared := hpending
    rw [hstate] at hdeclared
    obtain ⟨hdue, rfl⟩ := (pendingOnLine?_eq_some_iff folder hleft hsource).mp hdeclared
    obtain ⟨-, hname, -⟩ := (due_iff hsource).mp hdue
    rw [hcontent] at hname
    have hissued : Issued d (number old) old.length piece
        (Text.replaceAll old (issuedName d number old) piece) := (hheads old hdue).issued
    have hreplace := replaceAll_piece hfeed hpiece hname (hheads old hdue).ne_nil
      (issuedName d number old)
    have hpiece' : '\n' ∉ Text.replaceAll old (issuedName d number old) piece := by
      rwa [mem_respelled_iff (by decide) hissued.respelled]
    rw [step_of_some hpending, hreplace]
    refine ⟨_, left.erase old, rfl, ?_, pending_erase hleft hname, hpiece', ?_⟩
    · rw [hstate, erase_renamesUnder]
    · exact .issue hdue hissued (.nil _)

/-! ## All lines -/

/-- A name is due on a head line, where the lines above it are known. -/
lemma headLine_of_source {before after : List Text} {piece : Text}
    (hsource : sourceLines source = before ++ Injection.content piece :: after)
    (hheads : ∀ line name, Due d source names before.length name →
      (sourceLines source)[before.length]? = some line → HeadLine d line name)
    (name : Text) (hdue : Due d source names before.length name) :
    HeadLine d (Injection.content piece) name := by
  refine hheads _ name hdue ?_
  rw [hsource, List.getElem?_append_right (Nat.le_refl _), Nat.sub_self]
  rfl

lemma not_due_of_length_le {k : ℕ} {name : Text} (hk : (sourceLines source).length ≤ k) :
    ¬ Due d source names k name := by
  rintro ⟨-, h⟩
  obtain ⟨hlt, -⟩ := List.findIdx?_eq_some_iff_getElem.mp h
  omega

/-- The last line, which has no line feed and is no line of the source if it is empty. -/
lemma foldl_last (folder : Text) {before : List Text} {piece : Text} (hpiece : '\n' ∉ piece)
    (hsource : sourceLines source = before ++ (dropEmptyLast [piece]).map Injection.content)
    (hheads : ∀ line name, Due d source names before.length name →
      (sourceLines source)[before.length]? = some line → HeadLine d line name)
    {state : Injection} {left : SortedMap Text Text}
    (hstate : state.renames = renamesUnder folder left)
    (hleft : Pending d number names before left) :
    ∃ piece' left', ((withFeeds [piece]).foldl (Injection.step d folder) state).lines.reverse.flatten =
        state.lines.reverse.flatten ++ piece' ∧
      ((withFeeds [piece]).foldl (Injection.step d folder) state).renames =
        renamesUnder folder left' ∧
      Pending d number names (sourceLines source) left' ∧ '\n' ∉ piece' ∧
      IssuedLines d number (Due d source names) before.length [piece] [piece'] := by
  rw [dropEmptyLast_singleton] at hsource
  by_cases hnil : piece = []
  · rw [if_pos hnil, List.map_nil, List.append_nil] at hsource
    subst hnil
    rw [← hsource] at hleft
    refine ⟨[], left, (List.append_nil _).symm, hstate, hleft, hpiece, ?_⟩
    exact .keep (fun name => not_due_of_length_le (by rw [hsource])) (.nil _)
  · rw [if_neg hnil, List.map_singleton] at hsource
    obtain ⟨piece', left', hlines, hrenames, hpending, hpiece', hissued⟩ :=
      step_piece folder (.inl rfl) hpiece hsource (headLine_of_source hsource hheads) hstate hleft
    rw [List.append_nil, List.append_nil] at hlines
    rw [List.append_nil] at hrenames
    refine ⟨piece', left', ?_, ?_, hsource ▸ hpending, hpiece', hissued⟩
    · rw [withFeeds, if_neg hnil, List.foldl_cons, List.foldl_nil, hlines]
      simp
    · rw [withFeeds, if_neg hnil, List.foldl_cons, List.foldl_nil, hrenames]

/-- The lines of a source, from a place on where the names that are still pending are known. -/
lemma foldl_step (folder : Text) {ps : List Text} (hps : ps ≠ []) (hpieces : ∀ piece ∈ ps, '\n' ∉ piece)
    (before : List Text)
    (hsource : sourceLines source = before ++ (dropEmptyLast ps).map Injection.content)
    (hheads : ∀ k line name, Due d source names k name → (sourceLines source)[k]? = some line →
      HeadLine d line name)
    (state : Injection) {left : SortedMap Text Text}
    (hstate : state.renames = renamesUnder folder left)
    (hleft : Pending d number names before left) :
    ∃ ps' left', ps' ≠ [] ∧
      ((withFeeds ps).foldl (Injection.step d folder) state).lines.reverse.flatten =
        state.lines.reverse.flatten ++ Text.join "\n" ps' ∧
      ((withFeeds ps).foldl (Injection.step d folder) state).renames = renamesUnder folder left' ∧
      Pending d number names (sourceLines source) left' ∧ (∀ piece ∈ ps', '\n' ∉ piece) ∧
      IssuedLines d number (Due d source names) before.length ps ps' := by
  induction ps generalizing before state left with
  | nil => exact absurd rfl hps
  | cons piece ps ih =>
    have hpiece := hpieces piece List.mem_cons_self
    cases ps with
    | nil =>
      obtain ⟨piece', left', hlines, hrenames, hpending, hpiece', hissued⟩ :=
        foldl_last folder hpiece hsource (hheads before.length) hstate hleft
      refine ⟨[piece'], left', List.cons_ne_nil _ _, ?_, hrenames, hpending, ?_, hissued⟩
      · rw [hlines]
        simp [Text.join]
      · simpa using hpiece'
    | cons next rest =>
      rw [dropEmptyLast_cons _ (List.cons_ne_nil next rest), List.map_cons] at hsource
      obtain ⟨piece', left₁, hlines₁, hrenames₁, hpending₁, hpiece', hissued₁⟩ :=
        step_piece folder (.inr rfl) hpiece hsource
          (headLine_of_source hsource (hheads before.length)) hstate hleft
      obtain ⟨ps', left', hps', hlines, hrenames, hpending, hpieces', hissued⟩ :=
        ih (List.cons_ne_nil next rest) (fun p hp => hpieces p (List.mem_cons_of_mem piece hp))
          (before ++ [Injection.content piece])
          (by rw [hsource, List.append_assoc]; rfl) _ hrenames₁ hpending₁
      rw [List.length_append, List.length_singleton] at hissued
      refine ⟨piece' :: ps', left', List.cons_ne_nil _ _, ?_, hrenames, hpending, ?_,
        hissued₁.cons hissued⟩
      · rw [withFeeds, List.foldl_cons, hlines, hlines₁, join_cons _ _ hps']
        simp
      · exact List.forall_mem_cons.mpr ⟨hpiece', hpieces'⟩

/-! ## Injection -/

/-- Injecting the renames issues the lines on which they are due, and leaves the renames whose names
no line declares. -/
theorem inject_issuedRenames (number : Text → ℕ) {path : Text} (hpath : Text.contains folder path = true)
    (hheads : ∀ k line name, Due d source names k name → (sourceLines source)[k]? = some line →
      HeadLine d line name) :
    ∃ left, (d.inject path source (issuedRenames d number folder names)).value.2 =
        renamesUnder folder left ∧
      Pending d number names (sourceLines source) left ∧
      IssuedLines d number (Due d source names) 0 (pieces source)
        (pieces (d.inject path source (issuedRenames d number folder names)).value.1) := by
  obtain ⟨start, hrenames, hstart⟩ : ∃ start, issuedRenames d number folder names =
      renamesUnder folder start ∧ Pending d number names [] start := by
    refine ⟨_, foldl_insert_eq {} _ names, fun name new => ?_⟩
    rw [get?_foldl_insert]
    simp
  have hfolder := folderOf?_renamesUnder start hpath
  rw [hrenames]
  by_cases hempty : start.isEmpty = true
  · -- without renames nothing is due
    have hnone (name : Text) : name ∉ names := by
      intro hname
      have hget := (hstart name _).mpr ⟨⟨hname, by simp⟩, rfl⟩
      rw [eq_empty_of_isEmpty hempty] at hget
      cases hget
    have hdue (k : ℕ) (name : Text) : ¬ Due d source names k name := fun h => hnone name h.1
    have hinject : (d.inject path source (renamesUnder folder start)).value =
        (source, renamesUnder folder start) := by
      unfold Dialect.inject
      rw [hfolder, if_pos hempty]
      rfl
    rw [hinject]
    refine ⟨start, rfl, fun name new => ?_, .refl hdue 0 _⟩
    rw [hstart]
    exact and_congr_left fun _ => and_congr_right fun hname => absurd hname (hnone name)
  · have hpieces (piece : Text) (hpiece : piece ∈ pieces source) : '\n' ∉ piece :=
      notMem_of_mem_splitOn hpiece
    obtain ⟨ps', left, hps', hlines, hleft, hpending, hpieces', hissued⟩ :=
      foldl_step folder (pieces_ne_nil source) hpieces [] (sourceLines_eq source) hheads
        { renames := renamesUnder folder start } rfl hstart
    have hinject : (d.inject path source (renamesUnder folder start)).value =
        (Text.join "\n" ps', renamesUnder folder left) := by
      unfold Dialect.inject
      rw [hfolder, if_neg hempty]
      rw [← linesInclusive_eq] at hlines hleft
      exact Prod.ext hlines hleft
    rw [hinject]
    refine ⟨left, rfl, hpending, ?_⟩
    rw [pieces_join hps' hpieces']
    exact hissued

end TestCatalog.Proofs
