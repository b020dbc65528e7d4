import TestCatalog.Document.Cursor
import TestCatalog.Proofs.Blanks

/-!
# Lines of joined texts

The lines of a text come from its pieces between line feeds: all pieces but an empty last one are
lines. A cursor does not see the carriage returns, since it drops the blanks at the end of a line.
-/

namespace TestCatalog.Proofs

def pieces (t : Text) : List Text :=
  t.splitOn '\n'

lemma pieces_ne_nil (t : Text) : pieces t ≠ [] :=
  List.splitOn_ne_nil '\n' t

lemma pieces_append (s t : Text) : pieces (s ++ '\n' :: t) = pieces s ++ pieces t :=
  List.splitOn_append_cons_self s t

lemma pieces_join {ls : List Text} (hls : ls ≠ []) (h : ∀ l ∈ ls, '\n' ∉ l) :
    pieces (Text.join "\n" ls) = ls :=
  List.splitOn_intercalate '\n' h hls

lemma join_pieces (t : Text) : Text.join "\n" (pieces t) = t :=
  List.intercalate_splitOn '\n'

/-- The pieces without the last one if that is empty. -/
def dropEmptyLast (ps : List Text) : List Text :=
  ps.dropLast ++ (ps.getLast?.filter (· ≠ [])).toList

lemma dropEmptyLast_append (ps : List Text) {qs : List Text} (hqs : qs ≠ []) :
    dropEmptyLast (ps ++ qs) = ps ++ dropEmptyLast qs := by
  obtain ⟨start, last, rfl⟩ := List.eq_nil_or_concat qs |>.resolve_left hqs
  simp [dropEmptyLast, List.concat_eq_append, ← List.append_assoc]

lemma dropEmptyLast_concat (ps : List Text) (p : Text) :
    dropEmptyLast (ps ++ [p]) = if p = [] then ps else ps ++ [p] := by
  split <;> simp_all [dropEmptyLast]

lemma dropEmptyLast_cons (p : Text) {ps : List Text} (hps : ps ≠ []) :
    dropEmptyLast (p :: ps) = p :: dropEmptyLast ps :=
  dropEmptyLast_append [p] hps

lemma dropEmptyLast_singleton (p : Text) : dropEmptyLast [p] = if p = [] then [] else [p] :=
  dropEmptyLast_concat [] p

lemma join_cons (separator p : Text) {ps : List Text} (hps : ps ≠ []) :
    Text.join separator (p :: ps) = p ++ (separator ++ Text.join separator ps) := by
  rw [Text.join, List.intercalate_cons_of_ne_nil hps, List.append_assoc]
  rfl

lemma prefix_dropEmptyLast (ps : List Text) : dropEmptyLast ps <+: ps := by
  rcases List.eq_nil_or_concat ps with rfl | ⟨start, last, rfl⟩
  · exact List.prefix_rfl
  · rw [List.concat_eq_append, dropEmptyLast_concat]
    split_ifs
    · exact List.prefix_append start _
    · exact List.prefix_rfl

lemma mem_of_mem_dropEmptyLast {ps : List Text} {p : Text} (h : p ∈ dropEmptyLast ps) : p ∈ ps :=
  (prefix_dropEmptyLast ps).subset h

/-! ## What a cursor sees -/

/-- What does not see a carriage return at the end does not see whether it is dropped. -/
lemma apply_dropReturn {α : Type} (f : Text → α) (hf : ∀ t, f (t ++ ['\r']) = f t) (t : Text) :
    f (Text.dropReturn t) = f t := by
  unfold Text.dropReturn
  split_ifs with h
  · obtain ⟨start, rfl⟩ := List.getLast?_eq_some_iff.mp h
    rw [List.dropLast_concat, hf]
  · rfl

lemma trimEnd_dropReturn (t : Text) : Text.trimEnd (Text.dropReturn t) = Text.trimEnd t :=
  apply_dropReturn Text.trimEnd (trimEnd_append_right (by decide)) t

/-- The lines of a block as a cursor gives them. -/
def blockLines (t : Text) : List Text :=
  (Text.lines t).map Text.trimEnd

lemma ofText_eq (t : Text) : Cursor.ofText t = ⟨0, blockLines t⟩ := rfl

lemma blockLines_eq (t : Text) : blockLines t = (dropEmptyLast (pieces t)).map Text.trimEnd := by
  have hreturn : Text.trimEnd ∘ Text.dropReturn = Text.trimEnd := funext trimEnd_dropReturn
  simp [blockLines, Text.lines, dropEmptyLast, pieces, hreturn]

/-- Between two blocks that are put together stands at most one blank line. -/
theorem blockLines_append (s t : Text) : ∃ gap, (gap = [] ∨ gap = [[]]) ∧
    blockLines (s ++ '\n' :: t) = blockLines s ++ gap ++ blockLines t := by
  obtain ⟨start, last, hs⟩ := List.eq_nil_or_concat (pieces s) |>.resolve_left (pieces_ne_nil s)
  rw [List.concat_eq_append] at hs
  rw [blockLines_eq, pieces_append, dropEmptyLast_append _ (pieces_ne_nil t), List.map_append,
    ← blockLines_eq t, blockLines_eq s, hs, dropEmptyLast_concat]
  by_cases hlast : last = []
  · refine ⟨[[]], .inr rfl, ?_⟩
    simp [hlast, show Text.trimEnd [] = [] from rfl]
  · exact ⟨[], .inl rfl, by simp [hlast]⟩

def terminated (ls : List Text) : Text :=
  ls.flatMap (· ++ ['\n'])

lemma terminated_append (ls ls' : List Text) :
    terminated (ls ++ ls') = terminated ls ++ terminated ls' :=
  List.flatMap_append

lemma terminated_cons (l : Text) (ls : List Text) :
    terminated (l :: ls) = l ++ "\n" ++ terminated ls :=
  List.flatMap_cons

lemma pieces_terminated {ls : List Text} (h : ∀ l ∈ ls, '\n' ∉ l) :
    pieces (terminated ls) = ls ++ [[]] := by
  induction ls with
  | nil => rfl
  | cons l ls ih =>
    have hl : pieces l = [l] := List.splitOn_eq_singleton (h l List.mem_cons_self)
    rw [terminated, List.flatMap_cons, ← terminated, List.append_assoc, List.singleton_append,
      pieces_append, hl, ih fun l' hl' => h l' (List.mem_cons_of_mem l hl')]
    rfl

lemma blockLines_terminated {ls : List Text} (h : ∀ l ∈ ls, '\n' ∉ l) :
    blockLines (terminated ls) = ls.map Text.trimEnd := by
  rw [blockLines_eq, pieces_terminated h, dropEmptyLast_concat, if_pos rfl]

/-! ## Trimmed pieces -/

lemma notMem_of_mem_splitOn {sep : Char} {t p : Text} (hp : p ∈ t.splitOn sep) : sep ∉ p := by
  induction t generalizing p with
  | nil =>
    rw [List.splitOn_nil, List.mem_singleton] at hp
    simp [hp]
  | cons c t ih =>
    rw [List.splitOn_cons_eq_if_modifyHead] at hp
    obtain ⟨q, qs, hq⟩ := List.exists_cons_of_ne_nil (List.splitOn_ne_nil sep t)
    rw [hq] at hp ih
    by_cases hc : c = sep
    · rw [if_pos (by simp [hc])] at hp
      rcases List.mem_cons.mp hp with rfl | hp
      · exact List.not_mem_nil
      · exact ih hp
    · rw [if_neg (by simp [hc]), List.modifyHead_cons] at hp
      rcases List.mem_cons.mp hp with rfl | hp
      · have hhead := ih List.mem_cons_self
        simp [hhead, Ne.symm hc]
      · exact ih (List.mem_cons_of_mem q hp)

lemma notMem_blockLines {block line : Text} (h : line ∈ blockLines block) : '\n' ∉ line := by
  rw [blockLines_eq] at h
  obtain ⟨piece, hpiece, rfl⟩ := List.mem_map.mp h
  have hmem : piece ∈ pieces block := mem_of_mem_dropEmptyLast hpiece
  exact fun hfeed => notMem_of_mem_splitOn hmem (mem_of_mem_dropEndWhile hfeed)

lemma map_trim_splitOn_append_left {sep : Char} {l : Text} (hsep : Text.isBlank sep = false)
    (hl : AllBlank l) (t : Text) :
    ((l ++ t).splitOn sep).map Text.trim = (t.splitOn sep).map Text.trim := by
  obtain ⟨p, ps, hps⟩ := List.exists_cons_of_ne_nil (List.splitOn_ne_nil sep t)
  have hlsep : sep ∉ l := fun hmem => by simp [hl sep hmem] at hsep
  have hsplit : (l ++ t).splitOn sep = (l ++ p) :: ps := by
    have hjoin : [sep].intercalate ((l ++ p) :: ps) = l ++ t := by
      have ht : [sep].intercalate (t.splitOn sep) = t := List.intercalate_splitOn sep
      rw [hps] at ht
      rw [← ht]
      cases ps <;> simp [List.intercalate]
    rw [← hjoin]
    refine List.splitOn_intercalate sep (fun q hq => ?_) (List.cons_ne_nil _ _)
    rcases List.mem_cons.mp hq with rfl | hq
    · have hpsep : sep ∉ p := notMem_of_mem_splitOn (hps ▸ List.mem_cons_self)
      simp [hlsep, hpsep]
    · exact notMem_of_mem_splitOn (hps ▸ List.mem_cons_of_mem p hq)
  rw [hsplit, hps, List.map_cons, List.map_cons, trim_append_left hl]

lemma intercalate_concat_append (sep : Text) (ps : List Text) (last r : Text) :
    sep.intercalate (ps ++ [last ++ r]) = sep.intercalate (ps ++ [last]) ++ r := by
  induction ps with
  | nil => simp
  | cons p ps ih =>
    rw [List.cons_append, List.cons_append, List.intercalate_cons_of_ne_nil (by simp),
      List.intercalate_cons_of_ne_nil (by simp), ih]
    simp

lemma map_trim_splitOn_append_right {sep : Char} {r : Text} (hsep : Text.isBlank sep = false)
    (hr : AllBlank r) (t : Text) :
    ((t ++ r).splitOn sep).map Text.trim = (t.splitOn sep).map Text.trim := by
  obtain ⟨ps, last, hps⟩ :=
    List.eq_nil_or_concat (t.splitOn sep) |>.resolve_left (List.splitOn_ne_nil sep t)
  rw [List.concat_eq_append] at hps
  have hrsep : sep ∉ r := fun hmem => by simp [hr sep hmem] at hsep
  have hsplit : (t ++ r).splitOn sep = ps ++ [last ++ r] := by
    have ht : [sep].intercalate (t.splitOn sep) = t := List.intercalate_splitOn sep
    rw [hps] at ht
    rw [← ht, ← intercalate_concat_append]
    refine List.splitOn_intercalate sep (fun q hq => ?_) (by simp)
    rcases List.mem_append.mp hq with hq | hq
    · exact notMem_of_mem_splitOn (hps ▸ List.mem_append_left _ hq)
    · have hlast : sep ∉ last :=
        notMem_of_mem_splitOn (hps ▸ List.mem_append_right _ List.mem_cons_self)
      rw [List.mem_singleton.mp hq]
      simp [hlast, hrsep]
  rw [hsplit, hps]
  simp [trim_append_right hr]

lemma map_trim_splitOn_trim {sep : Char} (hsep : Text.isBlank sep = false) (t : Text) :
    ((Text.trim t).splitOn sep).map Text.trim = (t.splitOn sep).map Text.trim := by
  obtain ⟨l, r, hl, hr, h⟩ := exists_trim t
  conv_rhs => rw [h]
  rw [map_trim_splitOn_append_right hsep hr, map_trim_splitOn_append_left hsep hl]

lemma map_trim_splitOn_trimEnd {sep : Char} (hsep : Text.isBlank sep = false) (t : Text) :
    ((Text.trimEnd t).splitOn sep).map Text.trim = (t.splitOn sep).map Text.trim := by
  obtain ⟨r, hr, h⟩ := exists_trimEnd t
  conv_rhs => rw [h]
  rw [map_trim_splitOn_append_right hsep hr]

end TestCatalog.Proofs
