import Mathlib.Data.List.TakeWhile
import Mathlib.Tactic.Common
import TestCatalog.Text.Basic

/-!
# Blanks at the ends of a text

Trimming sees through blanks that are put in front of a text or behind it, and keeps a text whose
first and last characters are no blanks.
-/

namespace TestCatalog.Proofs

/-- What holds of the characters of a text is decided by these, not by all characters there are. -/
instance decidableForallMemText (t : Text) (p : Char → Prop) [DecidablePred p] :
    Decidable (∀ c ∈ t, p c) :=
  List.decidableBAll p t

instance decidableForallMemOption (o : Option Char) (p : Char → Prop) [DecidablePred p] :
    Decidable (∀ c ∈ o, p c) :=
  Option.decidableForallMem o

/-- A text that holds nothing but blanks. -/
def AllBlank (t : Text) : Prop :=
  ∀ c ∈ t, Text.isBlank c = true

instance (t : Text) : Decidable (AllBlank t) :=
  inferInstanceAs (Decidable (∀ c ∈ t, Text.isBlank c = true))

/-- A text that neither starts nor ends with a blank. -/
def BareEnds (t : Text) : Prop :=
  (∀ c ∈ t.head?, Text.isBlank c = false) ∧ ∀ c ∈ t.getLast?, Text.isBlank c = false

instance (t : Text) : Decidable (BareEnds t) :=
  inferInstanceAs (Decidable (_ ∧ _))

lemma not_isBlank_of_isDigit {c : Char} (h : c.isDigit = true) : Text.isBlank c = false := by
  have hrange : 48 ≤ c.toNat ∧ c.toNat ≤ 57 := by
    rw [Char.isDigit, Bool.and_eq_true, decide_eq_true_eq, decide_eq_true_eq] at h
    exact ⟨UInt32.le_iff_toNat_le.mp h.1, UInt32.le_iff_toNat_le.mp h.2⟩
  simp only [Text.isBlank, Bool.or_eq_false_iff, Bool.and_eq_false_iff, decide_eq_false_iff_not,
    beq_eq_false_iff_ne]
  omega

lemma allBlank_nil : AllBlank [] := by simp [AllBlank]

lemma allBlank_append {s t : Text} : AllBlank (s ++ t) ↔ AllBlank s ∧ AllBlank t := by
  simp [AllBlank, or_imp, forall_and]

lemma allBlank_reverse {t : Text} : AllBlank t.reverse ↔ AllBlank t := by
  simp [AllBlank]

/-! ## One end -/

lemma trimStart_eq_nil_iff {t : Text} : Text.trimStart t = [] ↔ AllBlank t := by
  simp [Text.trimStart, AllBlank, List.dropWhile_eq_nil_iff]

lemma trimStart_append_left {l : Text} (hl : AllBlank l) (t : Text) :
    Text.trimStart (l ++ t) = Text.trimStart t := by
  rw [Text.trimStart, List.dropWhile_append_of_pos hl, Text.trimStart]

lemma trimStart_append_right {t : Text} (ht : ¬ AllBlank t) (r : Text) :
    Text.trimStart (t ++ r) = Text.trimStart t ++ r := by
  rw [Text.trimStart, List.dropWhile_append, ← Text.trimStart]
  have hne : Text.trimStart t ≠ [] := fun h => ht (trimStart_eq_nil_iff.mp h)
  rw [if_neg (by simpa using hne)]

lemma trimStart_eq_self {t : Text} (ht : ∀ c ∈ t.head?, Text.isBlank c = false) :
    Text.trimStart t = t := by
  cases t with
  | nil => rfl
  | cons c t => simp [Text.trimStart, ht c rfl]

lemma exists_trimStart (t : Text) : ∃ l, AllBlank l ∧ t = l ++ Text.trimStart t :=
  ⟨t.takeWhile Text.isBlank, fun _ hc => List.mem_takeWhile_imp hc,
    List.takeWhile_append_dropWhile.symm⟩

lemma trimEnd_eq_nil_iff {t : Text} : Text.trimEnd t = [] ↔ AllBlank t := by
  simp [Text.trimEnd, AllBlank, List.dropWhile_eq_nil_iff]

lemma trimEnd_append_right {r : Text} (hr : AllBlank r) (t : Text) :
    Text.trimEnd (t ++ r) = Text.trimEnd t := by
  rw [Text.trimEnd, List.reverse_append,
    List.dropWhile_append_of_pos (allBlank_reverse.mpr hr), Text.trimEnd]

lemma trimEnd_eq_self {t : Text} (ht : ∀ c ∈ t.getLast?, Text.isBlank c = false) :
    Text.trimEnd t = t := by
  have h : Text.trimStart t.reverse = t.reverse := trimStart_eq_self (by simpa using ht)
  rw [Text.trimEnd, ← Text.trimStart, h, List.reverse_reverse]

lemma exists_trimEnd (t : Text) : ∃ r, AllBlank r ∧ t = Text.trimEnd t ++ r := by
  obtain ⟨l, hl, h⟩ := exists_trimStart t.reverse
  refine ⟨l.reverse, allBlank_reverse.mpr hl, ?_⟩
  have h' := congrArg List.reverse h
  rwa [List.reverse_reverse, List.reverse_append] at h'

/-! ## Both ends -/

lemma trim_eq_nil_iff {t : Text} : Text.trim t = [] ↔ AllBlank t := by
  rw [Text.trim, trimEnd_eq_nil_iff]
  obtain ⟨l, hl, h⟩ := exists_trimStart t
  constructor
  · intro hstart
    rw [h, allBlank_append]
    exact ⟨hl, hstart⟩
  · intro ht
    rw [trimStart_eq_nil_iff.mpr ht]
    exact allBlank_nil

lemma trim_append_left {l : Text} (hl : AllBlank l) (t : Text) :
    Text.trim (l ++ t) = Text.trim t := by
  rw [Text.trim, trimStart_append_left hl, Text.trim]

lemma trim_append_right {r : Text} (hr : AllBlank r) (t : Text) :
    Text.trim (t ++ r) = Text.trim t := by
  by_cases ht : AllBlank t
  · rw [trim_eq_nil_iff.mpr ht, trim_eq_nil_iff.mpr (allBlank_append.mpr ⟨ht, hr⟩)]
  · rw [Text.trim, trimStart_append_right ht, trimEnd_append_right hr, Text.trim]

lemma trim_eq_self {t : Text} (ht : BareEnds t) : Text.trim t = t := by
  rw [Text.trim, trimStart_eq_self ht.1, trimEnd_eq_self ht.2]

lemma trim_trimEnd (t : Text) : Text.trim (Text.trimEnd t) = Text.trim t := by
  obtain ⟨r, hr, h⟩ := exists_trimEnd t
  conv_rhs => rw [h, trim_append_right hr]

lemma exists_trim (t : Text) : ∃ l r, AllBlank l ∧ AllBlank r ∧ t = l ++ Text.trim t ++ r := by
  obtain ⟨l, hl, h⟩ := exists_trimStart t
  obtain ⟨r, hr, h'⟩ := exists_trimEnd (Text.trimStart t)
  refine ⟨l, r, hl, hr, ?_⟩
  rw [List.append_assoc, Text.trim, ← h', ← h]

lemma trimStart_head? (t : Text) : ∀ c ∈ (Text.trimStart t).head?, Text.isBlank c = false := by
  intro c hc
  have h := List.head?_dropWhile_not Text.isBlank t
  rw [← Text.trimStart, Option.mem_def.mp hc] at h
  exact h

lemma trimEnd_getLast? (t : Text) : ∀ c ∈ (Text.trimEnd t).getLast?, Text.isBlank c = false := by
  rw [Text.trimEnd, List.getLast?_reverse]
  exact trimStart_head? t.reverse

lemma bareEnds_trim (t : Text) : BareEnds (Text.trim t) := by
  refine ⟨fun c hc => ?_, trimEnd_getLast? _⟩
  obtain ⟨r, -, h⟩ := exists_trimEnd (Text.trimStart t)
  refine trimStart_head? t c ?_
  rw [h, ← Text.trim, List.head?_append, Option.mem_def.mp hc]
  rfl

@[simp] lemma trim_trim (t : Text) : Text.trim (Text.trim t) = Text.trim t :=
  trim_eq_self (bareEnds_trim t)

lemma mem_of_mem_trim {c : Char} {t : Text} (h : c ∈ Text.trim t) : c ∈ t := by
  obtain ⟨l, r, -, -, ht⟩ := exists_trim t
  rw [ht]
  exact List.mem_append_left _ (List.mem_append_right _ h)

lemma mem_of_mem_dropEndWhile {c : Char} {t : Text} {p : Char → Bool}
    (h : c ∈ Text.dropEndWhile p t) : c ∈ t := by
  unfold Text.dropEndWhile at h
  exact List.mem_reverse.mp ((List.dropWhile_sublist p).subset (List.mem_reverse.mp h))

/-! ## Beginnings -/

lemma stripStart?_append (start t : Text) : Text.stripStart? start (start ++ t) = some t := by
  induction start with
  | nil => rfl
  | cons c start ih => simp [Text.stripStart?, ih]

lemma stripStart?_eq_some {start t rest : Text} (h : Text.stripStart? start t = some rest) :
    t = start ++ rest := by
  induction start generalizing t with
  | nil =>
    cases h
    rfl
  | cons c start ih =>
    cases t with
    | nil => cases h
    | cons c' t =>
      rw [Text.stripStart?] at h
      split_ifs at h with hc
      rw [hc, ih h, List.cons_append]

lemma stripStart?_eq_none {start t : Text} (h : ¬ start <+: t) :
    Text.stripStart? start t = none := by
  cases hstrip : Text.stripStart? start t with
  | none => rfl
  | some rest => exact absurd ⟨rest, (stripStart?_eq_some hstrip).symm⟩ h

lemma startsWith_iff {start t : Text} : Text.startsWith start t = true ↔ start <+: t :=
  List.isPrefixOf_iff_prefix

lemma trim_append_of_bareEnds {s : Text} (hs : BareEnds s) (hne : s ≠ []) (t : Text) :
    Text.trim (s ++ t) = s ++ Text.trimEnd t := by
  obtain ⟨r, hr, h⟩ := exists_trimEnd t
  have hlast : ∀ c ∈ (s ++ Text.trimEnd t).getLast?, Text.isBlank c = false := by
    intro c hc
    rw [List.getLast?_append, Option.mem_def, Option.or_eq_some_iff] at hc
    rcases hc with hc | ⟨-, hc⟩
    · exact trimEnd_getLast? t c hc
    · exact hs.2 c hc
  have hhead : ∀ c ∈ (s ++ Text.trimEnd t).head?, Text.isBlank c = false := by
    cases s with
    | nil => exact absurd rfl hne
    | cons c s => exact hs.1
  conv_lhs => rw [h, ← List.append_assoc, trim_append_right hr]
  exact trim_eq_self ⟨hhead, hlast⟩

end TestCatalog.Proofs
