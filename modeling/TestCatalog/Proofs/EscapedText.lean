import TestCatalog.Document.Table
import TestCatalog.Proofs.Lines

/-!
# Escaped text

An escaped text has no character of markup but the ampersands of its entities. Escaping commutes
with trimming and with cutting a text into cells or lines, and is undone by putting the characters
for the entities, so that no two texts are escaped alike.
-/

namespace TestCatalog.Proofs

/-! ## Entities -/

/-- The characters of markup and the entities that stand for them. -/
def entities : List (Char × Text) :=
  [('&', "&amp;"), ('<', "&lt;"), ('>', "&gt;"), ('"', "&quot;"), ('\'', "&#x27;")]

lemma escapeMarkupChar_cases (c : Char) : (c, escapeMarkupChar c) ∈ entities ∨
    escapeMarkupChar c = [c] ∧ c ∉ entities.map Prod.fst := by
  by_cases hc : c ∈ entities.map Prod.fst
  · revert c
    decide
  · refine .inr ⟨?_, hc⟩
    simp only [entities, List.map_cons, List.map_nil, List.mem_cons, List.not_mem_nil, or_false,
      not_or] at hc
    simp [escapeMarkupChar, hc]

lemma escapeMarkup_cons (c : Char) (t : Text) :
    escapeMarkup (c :: t) = escapeMarkupChar c ++ escapeMarkup t :=
  List.flatMap_cons

lemma escapeMarkup_append (s t : Text) :
    escapeMarkup (s ++ t) = escapeMarkup s ++ escapeMarkup t :=
  List.flatMap_append

/-! ## Text without markup -/

/-- A text that has no character of markup, except that ampersands start entities. -/
structure Escaped (t : Text) : Prop where
  plain : ∀ c ∈ t, c ∉ ['<', '>', '"', '\'']
  entity : ∀ before after, t = before ++ '&' :: after → ∃ e ∈ entities, e.2 <+: '&' :: after

lemma escaped_of_notMem {t : Text} (h : ∀ c ∈ t, c ∉ ['&', '<', '>', '"', '\'']) : Escaped t where
  plain := fun c hc hmem => h c hc (List.mem_cons_of_mem _ hmem)
  entity := by
    rintro before after rfl
    exact absurd List.mem_cons_self (h '&' (by simp))

lemma Escaped.append {s t : Text} (hs : Escaped s) (ht : Escaped t) : Escaped (s ++ t) where
  plain := fun c hc => (List.mem_append.mp hc).elim (hs.plain c) (ht.plain c)
  entity := by
    intro before after h
    rcases List.append_eq_append_iff.mp h with ⟨u, -, hu⟩ | ⟨u, hu, hafter⟩
    · exact ht.entity u after hu
    · cases u with
      | nil => exact ht.entity [] after hafter.symm
      | cons c u =>
        obtain ⟨rfl, rfl⟩ := List.cons.inj hafter
        obtain ⟨e, he, hprefix⟩ := hs.entity before u hu
        exact ⟨e, he, hprefix.trans (List.prefix_append _ t)⟩

lemma escaped_flatMap {α : Type} {xs : List α} {f : α → Text} (h : ∀ x ∈ xs, Escaped (f x)) :
    Escaped (xs.flatMap f) := by
  induction xs with
  | nil => exact escaped_of_notMem (by simp)
  | cons x xs ih =>
    obtain ⟨hx, hxs⟩ := List.forall_mem_cons.mp h
    rw [List.flatMap_cons]
    exact hx.append (ih hxs)

lemma escaped_entity : ∀ e ∈ entities, Escaped e.2 := by
  have hname : ∀ e ∈ entities, e.2 = '&' :: e.2.tail ∧
      ∀ c ∈ e.2.tail, c ∉ ['&', '<', '>', '"', '\''] := by decide
  intro e he
  obtain ⟨htext, hplain⟩ := hname e he
  have hrest := escaped_of_notMem hplain
  refine ⟨fun c hc => ?_, fun before after h => ?_⟩
  · rw [htext] at hc
    rcases List.mem_cons.mp hc with rfl | hc
    · decide
    · exact hrest.plain c hc
  · cases before with
    | nil => exact ⟨e, he, h ▸ List.prefix_rfl⟩
    | cons c before =>
      rw [htext] at h
      exact hrest.entity before after (List.cons.inj h).2

/-- What is escaped has no markup left. -/
theorem escaped_escapeMarkup (t : Text) : Escaped (escapeMarkup t) := by
  refine escaped_flatMap fun c _ => ?_
  rcases escapeMarkupChar_cases c with he | ⟨hself, hc⟩
  · exact escaped_entity _ he
  · rw [hself]
    exact escaped_of_notMem fun c' hc' => List.mem_singleton.mp hc' ▸ hc

/-! ## Characters of escaped text -/

/-- A character that is in no entity is as little in the escaped text as in the text. -/
lemma notMem_escapeMarkup {c : Char} {t : Text} (hc : ∀ e ∈ entities, c ∉ e.2) (ht : c ∉ t) :
    c ∉ escapeMarkup t := by
  intro hmem
  obtain ⟨c', hc', hmem⟩ := List.mem_flatMap.mp hmem
  rcases escapeMarkupChar_cases c' with he | ⟨hself, -⟩
  · exact hc _ he hmem
  · rw [hself, List.mem_singleton] at hmem
    exact ht (hmem ▸ hc')

lemma head?_escapeMarkup (t : Text) :
    (escapeMarkup t).head? = t.head?.map fun c => if c ∈ entities.map Prod.fst then '&' else c := by
  cases t with
  | nil => rfl
  | cons c t =>
    rw [escapeMarkup_cons]
    rcases escapeMarkupChar_cases c with he | ⟨hself, hc⟩
    · have hhead : ∀ e ∈ entities, e.2.head? = some '&' := by decide
      rw [List.head?_append, hhead _ he, List.head?_cons, Option.map_some,
        if_pos (List.mem_map_of_mem he)]
      rfl
    · rw [hself, List.head?_cons, Option.map_some, if_neg hc]
      rfl

lemma getLast?_escapeMarkup (t : Text) : (escapeMarkup t).getLast? =
    t.getLast?.map fun c => if c ∈ entities.map Prod.fst then ';' else c := by
  obtain rfl | ⟨start, c, rfl⟩ := List.eq_nil_or_concat t
  · rfl
  · have hlast : escapeMarkup [c] = escapeMarkupChar c := List.flatMap_singleton _ _
    rw [List.concat_eq_append, escapeMarkup_append, hlast, List.getLast?_concat, Option.map_some]
    rcases escapeMarkupChar_cases c with he | ⟨hself, hc⟩
    · have hend : ∀ e ∈ entities, e.2.getLast? = some ';' := by decide
      rw [List.getLast?_append, hend _ he, if_pos (List.mem_map_of_mem he)]
      rfl
    · rw [hself, List.getLast?_concat, if_neg hc]

/-! ## Trimming -/

lemma escapeMarkup_of_allBlank {t : Text} (ht : AllBlank t) : escapeMarkup t = t := by
  induction t with
  | nil => rfl
  | cons c t ih =>
    have hc : Text.isBlank c = true := ht c List.mem_cons_self
    have hbare : ∀ c ∈ entities.map Prod.fst, Text.isBlank c = false := by decide
    rcases escapeMarkupChar_cases c with he | ⟨hself, -⟩
    · rw [hbare c (List.mem_map_of_mem he)] at hc
      cases hc
    · rw [escapeMarkup_cons, hself, ih fun c' hc' => ht c' (List.mem_cons_of_mem c hc')]
      rfl

lemma bareEnds_escapeMarkup {t : Text} (ht : BareEnds t) : BareEnds (escapeMarkup t) := by
  constructor
  · intro c hc
    rw [head?_escapeMarkup, Option.mem_def, Option.map_eq_some_iff] at hc
    obtain ⟨c', hc', rfl⟩ := hc
    split_ifs
    · decide
    · exact ht.1 c' hc'
  · intro c hc
    rw [getLast?_escapeMarkup, Option.mem_def, Option.map_eq_some_iff] at hc
    obtain ⟨c', hc', rfl⟩ := hc
    split_ifs
    · decide
    · exact ht.2 c' hc'

lemma trim_escapeMarkup (t : Text) : Text.trim (escapeMarkup t) = escapeMarkup (Text.trim t) := by
  obtain ⟨l, r, hl, hr, h⟩ := exists_trim t
  conv_lhs => rw [h]
  rw [escapeMarkup_append, escapeMarkup_append, escapeMarkup_of_allBlank hl,
    escapeMarkup_of_allBlank hr, trim_append_right hr, trim_append_left hl,
    trim_eq_self (bareEnds_escapeMarkup (bareEnds_trim t))]

/-! ## Cells -/

lemma escapeMarkup_intercalate (sep : Text) (ps : List Text) :
    escapeMarkup (sep.intercalate ps) = (escapeMarkup sep).intercalate (ps.map escapeMarkup) := by
  induction ps with
  | nil => rfl
  | cons p ps ih =>
    cases ps with
    | nil => simp
    | cons q ps =>
      rw [List.map_cons, List.map_cons, List.intercalate_cons_cons, List.intercalate_cons_cons,
        escapeMarkup_append, escapeMarkup_append, ih, List.map_cons]

/-- The pieces of an escaped text are the escaped pieces of the text, where it is cut at a character
that is neither escaped nor part of an entity. -/
lemma splitOn_escapeMarkup {sep : Char} (hsep : escapeMarkup [sep] = [sep])
    (hentity : ∀ e ∈ entities, sep ∉ e.2) (t : Text) :
    (escapeMarkup t).splitOn sep = (t.splitOn sep).map escapeMarkup := by
  have ht : escapeMarkup t = [sep].intercalate ((t.splitOn sep).map escapeMarkup) := by
    have hjoin : [sep].intercalate (t.splitOn sep) = t := List.intercalate_splitOn sep
    conv_lhs => rw [← hjoin, escapeMarkup_intercalate, hsep]
  rw [ht]
  refine List.splitOn_intercalate sep (fun piece hpiece => ?_) ?_
  · obtain ⟨piece', hpiece', rfl⟩ := List.mem_map.mp hpiece
    exact notMem_escapeMarkup hentity (notMem_of_mem_splitOn hpiece')
  · rw [Ne, List.map_eq_nil_iff]
    exact List.splitOn_ne_nil sep t

/-- The cells of an escaped row are the escaped cells of the row. -/
lemma cells_escapeMarkup (row : Text) :
    Table.cells (escapeMarkup row) = (Table.cells row).map escapeMarkup :=
  splitOn_escapeMarkup rfl (by decide) row

/-! ## Restored text -/

/-- Puts the characters for their entities, from the left, where the first `skip` characters belong
to an entity that is replaced already. -/
def restoreFrom : (skip : ℕ) → Text → Text
  | _, [] => []
  | skip + 1, _ :: t => restoreFrom skip t
  | 0, c :: t =>
    match entities.find? fun e => Text.startsWith e.2 (c :: t) with
    | some e => e.1 :: restoreFrom (e.2.length - 1) t
    | none => c :: restoreFrom 0 t

/-- Replaces the entities by their characters, in one pass from the left. -/
def restore (t : Text) : Text :=
  restoreFrom 0 t

lemma restoreFrom_length (s t : Text) : restoreFrom s.length (s ++ t) = restore t := by
  induction s with
  | nil => rfl
  | cons c s ih => exact ih

lemma exists_entity_name : ∀ e ∈ entities, ∃ name, e.2 = '&' :: name :=
  fun e he => ⟨e.2.tail, by revert e; decide⟩

/-- No entity begins like another one, so that it is found wherever it stands. -/
lemma find?_entity {e : Char × Text} (he : e ∈ entities) (t : Text) :
    (entities.find? fun e' => Text.startsWith e'.2 (e.2 ++ t)) = some e := by
  have hapart : ∀ e ∈ entities, ∀ e' ∈ entities, e.2 <+: e'.2 → e = e' := by decide
  have hstart : Text.startsWith e.2 (e.2 ++ t) = true := startsWith_iff.mpr (List.prefix_append _ t)
  have hsome : (entities.find? fun e' => Text.startsWith e'.2 (e.2 ++ t)).isSome = true :=
    List.find?_isSome.mpr ⟨e, he, hstart⟩
  obtain ⟨e', hfind⟩ := Option.isSome_iff_exists.mp hsome
  have he' := List.mem_of_find?_eq_some hfind
  have hfound := List.find?_some hfind
  have hstart' : e'.2 <+: e.2 ++ t := startsWith_iff.mp hfound
  rcases List.prefix_or_prefix_of_prefix hstart' (List.prefix_append _ t) with hle | hle
  · rw [hfind, hapart e' he' e he hle]
  · rw [hfind, hapart e he e' he' hle]

lemma restore_entity {e : Char × Text} (he : e ∈ entities) (t : Text) :
    restore (e.2 ++ t) = e.1 :: restore t := by
  have hfind := find?_entity he t
  obtain ⟨name, hname⟩ := exists_entity_name e he
  rw [hname, List.cons_append] at hfind ⊢
  rw [restore, restoreFrom, hfind]
  simp only [hname, List.length_cons, Nat.add_sub_cancel]
  rw [restoreFrom_length]

lemma restore_cons {c : Char} (hc : c ≠ '&') (t : Text) : restore (c :: t) = c :: restore t := by
  have hnone : (entities.find? fun e => Text.startsWith e.2 (c :: t)) = none := by
    refine List.find?_eq_none.mpr fun e he hstart => ?_
    obtain ⟨name, hname⟩ := exists_entity_name e he
    rw [startsWith_iff, hname] at hstart
    exact hc (List.cons_prefix_cons.mp hstart).1.symm
  rw [restore, restoreFrom, hnone, restore]

/-- What is escaped is restored, whatever follows it. -/
theorem restore_escapeMarkup_append (s t : Text) :
    restore (escapeMarkup s ++ t) = s ++ restore t := by
  induction s with
  | nil => rfl
  | cons c s ih =>
    rw [escapeMarkup_cons, List.append_assoc]
    rcases escapeMarkupChar_cases c with he | ⟨hself, hc⟩
    · rw [restore_entity he, ih, List.cons_append]
    · have hne : c ≠ '&' := by
        rintro rfl
        exact hc (by decide)
      rw [hself, List.singleton_append, restore_cons hne, ih, List.cons_append]

lemma restore_escapeMarkup (t : Text) : restore (escapeMarkup t) = t := by
  have h := restore_escapeMarkup_append t []
  rwa [List.append_nil, show restore [] = [] from rfl, List.append_nil] at h

/-- No two texts are escaped alike. -/
theorem escapeMarkup_injective : Function.Injective escapeMarkup :=
  Function.LeftInverse.injective restore_escapeMarkup

/-! ## Lines -/

lemma dropReturn_escapeMarkup (line : Text) :
    Text.dropReturn (escapeMarkup line) = escapeMarkup (Text.dropReturn line) := by
  obtain rfl | ⟨start, c, rfl⟩ := List.eq_nil_or_concat line
  · rfl
  rw [List.concat_eq_append]
  by_cases hc : c = '\r'
  · subst hc
    have hreturn : escapeMarkup ['\r'] = ['\r'] := rfl
    simp [Text.dropReturn, escapeMarkup_append, hreturn]
  · have hlast : (escapeMarkup (start ++ [c])).getLast? ≠ some '\r' := by
      rw [getLast?_escapeMarkup, List.getLast?_concat, Option.map_some]
      split_ifs
      · decide
      · simpa using hc
    have hlast' : (start ++ [c]).getLast? ≠ some '\r' := by
      simpa using hc
    rw [Text.dropReturn, if_neg hlast, Text.dropReturn, if_neg hlast']

lemma escapeMarkup_eq_nil_iff {t : Text} : escapeMarkup t = [] ↔ t = [] :=
  escapeMarkup_injective.eq_iff' rfl

lemma lines_escapeMarkup (t : Text) :
    Text.lines (escapeMarkup t) = (Text.lines t).map escapeMarkup := by
  have hpieces : (escapeMarkup t).splitOn '\n' = (t.splitOn '\n').map escapeMarkup :=
    splitOn_escapeMarkup rfl (by decide) t
  have hfilled : (fun p : Text => decide (p ≠ [])) ∘ escapeMarkup = fun p => decide (p ≠ []) := by
    funext p
    simp [escapeMarkup_eq_nil_iff]
  have hreturn : Text.dropReturn ∘ escapeMarkup = escapeMarkup ∘ Text.dropReturn :=
    funext dropReturn_escapeMarkup
  unfold Text.lines
  dsimp only
  rw [hpieces, List.map_append, ← List.map_dropLast, List.map_map, hreturn, List.map_map,
    List.getLast?_map, Option.filter_map, hfilled, Option.toList_map]

/-- Escaping can be undone and is the work of single characters. Putting the characters for their
entities gives the text back, also if the text has entities of its own; and escaping a text is
escaping its parts, be they put together, trimmed, or cut at bars or line feeds. -/
theorem escapeMarkup_reversible :
    (∀ t, restore (escapeMarkup t) = t) ∧
    (∀ s t, escapeMarkup (s ++ t) = escapeMarkup s ++ escapeMarkup t) ∧
    (∀ t, Text.trim (escapeMarkup t) = escapeMarkup (Text.trim t)) ∧
    (∀ t, (escapeMarkup t).splitOn '|' = (t.splitOn '|').map escapeMarkup) ∧
    (∀ t, (escapeMarkup t).splitOn '\n' = (t.splitOn '\n').map escapeMarkup) ∧
    ∀ t, Text.lines (escapeMarkup t) = (Text.lines t).map escapeMarkup := by
  refine ⟨restore_escapeMarkup, escapeMarkup_append, trim_escapeMarkup, cells_escapeMarkup, ?_,
    lines_escapeMarkup⟩
  exact splitOn_escapeMarkup rfl (by decide)

end TestCatalog.Proofs
