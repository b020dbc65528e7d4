import TestCatalog.Proofs.Spelling

/-!
# Replaced names

Replacing the fresh name of a case by its issued name respells a text. A respelled text has as many
section markers as it had.
-/

namespace TestCatalog.Proofs

/-! ## Occurrences -/

section Occurrences

variable {needle : Text}

lemma not_prefix_of_head? (hneedle : needle ≠ []) {c : Char} (h : needle.head? ≠ some c) (t : Text) :
    ¬ needle <+: c :: t := by
  intro hstart
  obtain ⟨c', o, rfl⟩ := List.exists_cons_of_ne_nil hneedle
  exact h (congrArg some (List.cons_prefix_cons.mp hstart).1)

/-- Induction along the occurrences of a needle: the text goes on behind the needle, or behind a
character at which the needle does not stand. -/
@[elab_as_elim]
theorem occurrence_induction (hneedle : needle ≠ []) {motive : Text → Prop} (nil : motive [])
    (here : ∀ t, motive t → motive (needle ++ t))
    (cons : ∀ c t, ¬ needle <+: c :: t → motive t → motive (c :: t)) (t : Text) : motive t := by
  induction hlen : t.length using Nat.strongRecOn generalizing t with
  | ind len ih =>
    subst hlen
    by_cases hstart : needle <+: t
    · obtain ⟨rest, rfl⟩ := hstart
      have hlt : rest.length < (needle ++ rest).length := by
        have hpos := List.length_pos_iff.mpr hneedle
        rw [List.length_append]
        omega
      exact here rest (ih rest.length hlt rest rfl)
    · cases t with
      | nil => exact nil
      | cons c t => exact cons c t hstart (ih t.length (Nat.lt_succ_self _) t rfl)

end Occurrences

/-! ## Replacement -/

section Replacement

variable {old new : Text}

lemma replaceFrom_length_append (s t : Text) :
    Text.replaceFrom old new s.length (s ++ t) = Text.replaceFrom old new 0 t := by
  induction s with
  | nil => rfl
  | cons c s ih => exact ih

lemma replaceAll_append_old (hold : old ≠ []) (t : Text) :
    Text.replaceAll old new (old ++ t) = new ++ Text.replaceAll old new t := by
  obtain ⟨c, o, rfl⟩ := List.exists_cons_of_ne_nil hold
  have hstart : Text.startsWith (c :: o) (c :: (o ++ t)) = true :=
    startsWith_iff.mpr ⟨t, rfl⟩
  unfold Text.replaceAll
  rw [List.cons_append, Text.replaceFrom, if_pos hstart]
  exact congrArg (new ++ ·) (replaceFrom_length_append o t)

lemma replaceAll_cons {c : Char} {t : Text} (h : ¬ old <+: c :: t) :
    Text.replaceAll old new (c :: t) = c :: Text.replaceAll old new t := by
  unfold Text.replaceAll
  rw [Text.replaceFrom, if_neg (mt startsWith_iff.mp h)]

lemma replaceAll_append_left {l : Text} (hold : old ≠ []) (hl : ∀ c ∈ l, old.head? ≠ some c)
    (t : Text) : Text.replaceAll old new (l ++ t) = l ++ Text.replaceAll old new t := by
  induction l with
  | nil => rfl
  | cons c l ih =>
    have hstart := not_prefix_of_head? hold (hl c List.mem_cons_self) (l ++ t)
    rw [List.cons_append, replaceAll_cons hstart,
      ih fun c' hc' => hl c' (List.mem_cons_of_mem c hc')]
    rfl

lemma replaceAll_concat {c : Char} (hold : old ≠ []) (hc : c ∉ old) (t : Text) :
    Text.replaceAll old new (t ++ [c]) = Text.replaceAll old new t ++ [c] := by
  have hleads {t : Text} (hstart : ¬ old <+: t) : ¬ old <+: t ++ [c] := by
    rw [List.prefix_concat_iff]
    rintro (h | h)
    · exact hc (by rw [h]; simp)
    · exact hstart h
  induction t using occurrence_induction hold with
  | nil => exact replaceAll_cons (hleads (mt List.prefix_nil.mp hold))
  | here t ih =>
    rw [List.append_assoc, replaceAll_append_old hold, replaceAll_append_old hold, ih,
      List.append_assoc]
  | cons c' t hstart ih =>
    have hstart' : ¬ old <+: c' :: (t ++ [c]) := hleads hstart
    rw [List.cons_append, replaceAll_cons hstart', replaceAll_cons hstart, ih]
    rfl

/-- Replacing a fresh name by an issued one respells the text. -/
theorem respelled_replaceAll (d : Dialect) (n : ℕ) (rest t : Text) :
    Respelled d t (Text.replaceAll (freshMark d ++ rest) (issuedMark d n ++ rest) t) := by
  have hold : freshMark d ++ rest ≠ [] :=
    List.append_ne_nil_of_left_ne_nil (freshMark_ne_nil d) rest
  induction t using occurrence_induction hold with
  | nil => exact .nil
  | here t ih =>
    rw [replaceAll_append_old hold, List.append_assoc, List.append_assoc]
    exact .mark n (respelled_append (respelled_refl d rest) ih)
  | cons c t hstart ih =>
    rw [replaceAll_cons hstart]
    exact .char c ih

end Replacement

/-! ## Section markers -/

section Counting

variable {needle : Text}

lemma countFrom_length_append (found : ℕ) (s t : Text) :
    Text.countFrom needle s.length found (s ++ t) = Text.countFrom needle 0 found t := by
  induction s with
  | nil => rfl
  | cons c s ih => exact ih

lemma countFrom_append_needle (hneedle : needle ≠ []) (found : ℕ) (t : Text) :
    Text.countFrom needle 0 found (needle ++ t) = Text.countFrom needle 0 (found + 1) t := by
  obtain ⟨c, o, rfl⟩ := List.exists_cons_of_ne_nil hneedle
  have hstart : Text.startsWith (c :: o) (c :: (o ++ t)) = true := startsWith_iff.mpr ⟨t, rfl⟩
  rw [List.cons_append, Text.countFrom, if_pos hstart]
  exact countFrom_length_append (found + 1) o t

lemma countFrom_cons {c : Char} {t : Text} (found : ℕ) (h : ¬ needle <+: c :: t) :
    Text.countFrom needle 0 found (c :: t) = Text.countFrom needle 0 found t := by
  rw [Text.countFrom, if_neg (mt startsWith_iff.mp h)]

lemma countFrom_append_left {l : Text} (hneedle : needle ≠ [])
    (hl : ∀ c ∈ l, needle.head? ≠ some c) (found : ℕ) (t : Text) :
    Text.countFrom needle 0 found (l ++ t) = Text.countFrom needle 0 found t := by
  induction l with
  | nil => rfl
  | cons c l ih =>
    have hstart := not_prefix_of_head? hneedle (hl c List.mem_cons_self) (l ++ t)
    rw [List.cons_append, countFrom_cons found hstart]
    exact ih fun c' hc' => hl c' (List.mem_cons_of_mem c hc')

/-- No occurrence of the text in a table meets a mark: it has no `<`, and no `T` at its end or
before a `C`. -/
def MissesMarks : Text → Prop
  | [] => True
  | c :: t => c ≠ '<' ∧ (c = 'T' → t ≠ [] ∧ t.head? ≠ some 'C') ∧ MissesMarks t

instance decidableMissesMarks : (t : Text) → Decidable (MissesMarks t)
  | [] => inferInstanceAs (Decidable True)
  | c :: t =>
    have := decidableMissesMarks t
    inferInstanceAs (Decidable (c ≠ '<' ∧ (c = 'T' → t ≠ [] ∧ t.head? ≠ some 'C') ∧ _))

variable {p x x' : Text}

lemma exists_of_prefix (hp : MissesMarks p) (h : Respelled .keywordTable x x') (hx : p <+: x) :
    ∃ y y', x = p ++ y ∧ x' = p ++ y' ∧ Respelled .keywordTable y y' := by
  induction p generalizing x x' with
  | nil => exact ⟨x, x', rfl, rfl, h⟩
  | cons c p ih =>
    obtain ⟨hangle, -, hp⟩ := hp
    cases h with
    | nil => exact absurd (List.prefix_nil.mp hx) (List.cons_ne_nil c p)
    | char c' h =>
      obtain ⟨rfl, htail⟩ := List.cons_prefix_cons.mp hx
      obtain ⟨y, y', rfl, rfl, hy⟩ := ih hp h htail
      exact ⟨y, y', rfl, rfl, hy⟩
    | mark n h => exact absurd (List.cons_prefix_cons.mp hx).1 hangle

lemma prefix_of_issued (hp : MissesMarks p) (h : Respelled .keywordTable x x') (hx' : p <+: x') :
    p <+: x := by
  induction p generalizing x x' with
  | nil => exact List.nil_prefix
  | cons c p ih =>
    obtain ⟨-, hissued, hp⟩ := hp
    cases h with
    | nil => exact hx'
    | char c' h =>
      obtain ⟨rfl, htail⟩ := List.cons_prefix_cons.mp hx'
      exact List.cons_prefix_cons.mpr ⟨rfl, ih hp h htail⟩
    | mark n h =>
      obtain ⟨hc, htail⟩ := List.cons_prefix_cons.mp hx'
      obtain ⟨hne, hnext⟩ := hissued hc
      obtain ⟨c', p', rfl⟩ := List.exists_cons_of_ne_nil hne
      exact absurd (congrArg some (List.cons_prefix_cons.mp htail).1) hnext

lemma star_notMem_freshMark : '*' ∉ freshMark .keywordTable := by
  decide

lemma star_notMem_issuedMark {n : ℕ} : '*' ∉ issuedMark .keywordTable n := by
  have hlead : '*' ∉ ("TC-GID-" : Text) := by decide
  have htail : '*' ∉ (":" : Text) := by decide
  intro hmem
  rcases List.mem_append.mp hmem with hmem | hmem
  · rcases List.mem_append.mp hmem with hmem | hmem
    · exact hlead hmem
    · exact absurd (isDigit_of_mem_ofNat hmem) (by decide)
  · exact htail hmem

theorem count_respelled (hneedle : needle.head? = some '*') (hp : MissesMarks needle)
    (h : Respelled .keywordTable x x') : Text.count needle x' = Text.count needle x := by
  have hne : needle ≠ [] := by
    rintro rfl
    cases hneedle
  have hinert {l : Text} (hl : '*' ∉ l) (found : ℕ) (t : Text) :
      Text.countFrom needle 0 found (l ++ t) = Text.countFrom needle 0 found t := by
    refine countFrom_append_left hne (fun c hc heq => ?_) found t
    rw [hneedle] at heq
    cases heq
    exact hl hc
  have hstep (found : ℕ) :
      Text.countFrom needle 0 found x' = Text.countFrom needle 0 found x := by
    induction hlen : x.length using Nat.strongRecOn generalizing x x' found with
    | ind len ih =>
      subst hlen
      by_cases hx : needle <+: x
      · obtain ⟨y, y', rfl, rfl, hy⟩ := exists_of_prefix hp h hx
        have hlt : y.length < (needle ++ y).length := by
          have hpos := List.length_pos_iff.mpr hne
          rw [List.length_append]
          omega
        rw [countFrom_append_needle hne, countFrom_append_needle hne]
        exact ih y.length hlt hy (found + 1) rfl
      · have hx' := mt (prefix_of_issued hp h) hx
        cases h with
        | nil => rfl
        | char c h =>
          rw [countFrom_cons found hx, countFrom_cons found hx']
          exact ih _ (Nat.lt_succ_self _) h found rfl
        | @mark n y y' h =>
          have hlt : y.length < (freshMark .keywordTable ++ y).length := by
            rw [List.length_append]
            exact Nat.lt_add_of_pos_left (by decide)
          rw [hinert star_notMem_issuedMark, hinert star_notMem_freshMark]
          exact ih y.length hlt h found rfl
  exact hstep 0

end Counting

end TestCatalog.Proofs
