import Mathlib.Data.List.Sort
import TestCatalog.SortedMap

/-!
# Laws of sorted maps

What a map holds after an insertion and a removal. Maps that hold the same are equal.
-/

namespace TestCatalog.Proofs

variable {κ α : Type} [LT κ]

/-! ## Look-up -/

section Lookup

variable [Std.Irrefl (· < · : κ → κ → Prop)]

lemma key_unique {l : List (κ × α)} (h : l.Pairwise fun a b => a.1 < b.1) {k : κ} {v v' : α}
    (hv : (k, v) ∈ l) (hv' : (k, v') ∈ l) : v = v' := by
  have hirrefl : ¬ k < k := Std.Irrefl.irrefl (r := (· < · : κ → κ → Prop)) k
  induction l with
  | nil => cases hv
  | cons e l ih =>
    obtain ⟨hfirst, hrest⟩ := List.pairwise_cons.mp h
    rcases List.mem_cons.mp hv with rfl | hin
    · rcases List.mem_cons.mp hv' with heq | hin'
      · cases heq
        rfl
      · exact (hirrefl (hfirst (k, v') hin')).elim
    · rcases List.mem_cons.mp hv' with rfl | hin'
      · exact (hirrefl (hfirst (k, v) hin)).elim
      · exact ih hrest hin hin'

lemma nodup_map_key (m : SortedMap κ α) : (m.entries.map Prod.fst).Nodup := by
  refine List.pairwise_map.mpr (m.sorted.imp fun {a b} hlt heq => ?_)
  rw [heq] at hlt
  exact Std.Irrefl.irrefl (r := (· < · : κ → κ → Prop)) b.1 hlt

variable [DecidableEq κ] {m : SortedMap κ α} {k : κ} {v : α}

theorem get?_eq_some_iff : m.get? k = some v ↔ (k, v) ∈ m.entries := by
  unfold SortedMap.get?
  constructor
  · intro h
    obtain ⟨⟨k', v'⟩, hfind, rfl⟩ := Option.map_eq_some_iff.mp h
    obtain rfl : k' = k := by simpa using List.find?_some hfind
    exact List.mem_of_find?_eq_some hfind
  · intro h
    cases hfind : m.entries.find? fun entry => entry.1 = k with
    | none =>
      have hne := List.find?_eq_none.mp hfind (k, v) h
      simp at hne
    | some entry =>
      obtain ⟨k', v'⟩ := entry
      obtain rfl : k' = k := by simpa using List.find?_some hfind
      rw [Option.map_some, key_unique m.sorted h (List.mem_of_find?_eq_some hfind)]

lemma get?_eq_none_iff : m.get? k = none ↔ ∀ v, (k, v) ∉ m.entries := by
  constructor
  · intro h v hv
    rw [get?_eq_some_iff.mpr hv] at h
    cases h
  · intro h
    cases hv : m.get? k with
    | none => rfl
    | some v => exact absurd (get?_eq_some_iff.mp hv) (h v)

theorem get?_erase (m : SortedMap κ α) (k k' : κ) :
    (m.erase k).get? k' = if k' = k then none else m.get? k' := by
  have hmem (v : α) : (k', v) ∈ (m.erase k).entries ↔ (k', v) ∈ m.entries ∧ k' ≠ k := by
    simp [SortedMap.erase]
  by_cases hk : k' = k
  · rw [if_pos hk]
    exact get?_eq_none_iff.mpr fun v hv => ((hmem v).mp hv).2 hk
  · rw [if_neg hk]
    cases hv : m.get? k' with
    | none => exact get?_eq_none_iff.mpr fun v hv' => get?_eq_none_iff.mp hv v ((hmem v).mp hv').1
    | some v => exact get?_eq_some_iff.mpr ((hmem v).mpr ⟨get?_eq_some_iff.mp hv, hk⟩)

lemma contains_eq_true_iff : m.contains k = true ↔ k ∈ m.keys := by
  rw [SortedMap.contains, Option.isSome_iff_exists, SortedMap.keys, List.mem_map]
  constructor
  · rintro ⟨v, hv⟩
    exact ⟨(k, v), get?_eq_some_iff.mp hv, rfl⟩
  · rintro ⟨⟨k', v⟩, hmem, rfl⟩
    exact ⟨v, get?_eq_some_iff.mpr hmem⟩

end Lookup

/-- The first entry with a property is the one with the least key. -/
theorem find?_entries_eq_some_iff [Std.Asymm (· < · : κ → κ → Prop)] {m : SortedMap κ α}
    {p : κ × α → Bool} {e : κ × α} : m.entries.find? p = some e ↔
      e ∈ m.entries ∧ p e = true ∧ ∀ e' ∈ m.entries, p e' = true → ¬ e'.1 < e.1 := by
  constructor
  · intro hfind
    obtain ⟨hp, before, after, hentries, hbefore⟩ := List.find?_eq_some_iff_append.mp hfind
    have hsorted := m.sorted
    rw [hentries] at hsorted ⊢
    refine ⟨by simp, hp, fun e' he' hp' hlt => ?_⟩
    rcases List.mem_append.mp he' with he' | he'
    · have hnot := hbefore e' he'
      rw [hp'] at hnot
      cases hnot
    · have hafter := (List.pairwise_cons.mp (List.pairwise_append.mp hsorted).2.1).1
      rcases List.mem_cons.mp he' with rfl | he'
      · exact Std.Asymm.asymm _ _ hlt hlt
      · exact Std.Asymm.asymm _ _ hlt (hafter e' he')
  · rintro ⟨hmem, hp, hleast⟩
    obtain ⟨before, after, hentries⟩ := List.append_of_mem hmem
    refine List.find?_eq_some_iff_append.mpr ⟨hp, before, after, hentries, fun e' he' => ?_⟩
    have hsorted := m.sorted
    rw [hentries] at hsorted
    have hlt := (List.pairwise_append.mp hsorted).2.2 e' he' e List.mem_cons_self
    have hmem' : e' ∈ m.entries := hentries ▸ List.mem_append_left _ he'
    cases hp' : p e' with
    | false => rfl
    | true => exact absurd hlt (hleast e' hmem' hp')

/-! ## Equality -/

/-- Maps that hold the same entries are equal. -/
theorem eq_of_mem_entries_iff [Std.Asymm (· < · : κ → κ → Prop)] {m m' : SortedMap κ α}
    (h : ∀ e, e ∈ m.entries ↔ e ∈ m'.entries) : m = m' := by
  have hasymm (a b : κ × α) (hab : a.1 < b.1) : ¬ b.1 < a.1 := Std.Asymm.asymm a.1 b.1 hab
  have : Std.Irrefl fun a b : κ × α => a.1 < b.1 := ⟨fun a haa => hasymm a a haa haa⟩
  have : Std.Antisymm fun a b : κ × α => a.1 < b.1 :=
    ⟨fun a b hab hba => absurd hba (hasymm a b hab)⟩
  exact SortedMap.ext_entries (m.sorted.eq_of_mem_iff m'.sorted h)

/-! ## Insertion -/

section Insertion

variable [DecidableLT κ] [Std.Asymm (· < · : κ → κ → Prop)]
  [Std.Trichotomous (· < · : κ → κ → Prop)]
  [Trans (· < · : κ → κ → Prop) (· < · : κ → κ → Prop) (· < · : κ → κ → Prop)]

lemma mem_insertEntry_iff {l : List (κ × α)} (h : l.Pairwise fun a b => a.1 < b.1) {k : κ} {v : α}
    {e : κ × α} : e ∈ SortedMap.insertEntry k v l ↔ e = (k, v) ∨ e ∈ l ∧ e.1 ≠ k := by
  have hne {k k' : κ} (hlt : k < k') : k' ≠ k := by
    rintro rfl
    exact Std.Asymm.asymm _ _ hlt hlt
  induction l with
  | nil => simp [SortedMap.insertEntry]
  | cons e₁ l ih =>
    obtain ⟨k₁, v₁⟩ := e₁
    obtain ⟨hfirst, hrest⟩ := List.pairwise_cons.mp h
    rw [SortedMap.insertEntry]
    split_ifs with hlt hgt
    · -- the new key comes first, so that all others differ from it
      have hother (e : κ × α) (he : e ∈ (k₁, v₁) :: l) : e.1 ≠ k := by
        rcases List.mem_cons.mp he with rfl | he
        · exact hne hlt
        · exact hne (Trans.trans hlt (hfirst e he))
      rw [List.mem_cons]
      exact or_congr_right ⟨fun he => ⟨he, hother e he⟩, fun he => he.1⟩
    · have hk₁ : k₁ ≠ k := (hne hgt).symm
      have ih := ih hrest
      simp only [List.mem_cons, ih]
      constructor
      · rintro (rfl | rfl | ⟨he, hk⟩)
        · exact .inr ⟨.inl rfl, hk₁⟩
        · exact .inl rfl
        · exact .inr ⟨.inr he, hk⟩
      · rintro (rfl | ⟨rfl | he, hk⟩)
        · exact .inr (.inl rfl)
        · exact .inl rfl
        · exact .inr (.inr ⟨he, hk⟩)
    · obtain rfl : k = k₁ :=
        Std.Trichotomous.trichotomous (r := (· < · : κ → κ → Prop)) k k₁ hlt hgt
      rw [List.mem_cons, List.mem_cons]
      constructor
      · rintro (rfl | he)
        · exact .inl rfl
        · exact .inr ⟨.inr he, hne (hfirst e he)⟩
      · rintro (rfl | ⟨rfl | he, hk⟩)
        · exact .inl rfl
        · exact absurd rfl hk
        · exact .inr he

theorem mem_entries_insert_iff {m : SortedMap κ α} {k : κ} {v : α} {e : κ × α} :
    e ∈ (m.insert k v).entries ↔ e = (k, v) ∨ e ∈ m.entries ∧ e.1 ≠ k := by
  rw [SortedMap.entries_insert, mem_insertEntry_iff m.sorted]

lemma get?_insert [DecidableEq κ] (m : SortedMap κ α) (k : κ) (v : α) (k' : κ) :
    (m.insert k v).get? k' = if k' = k then some v else m.get? k' := by
  have hirrefl : Std.Irrefl (· < · : κ → κ → Prop) := ⟨fun k hlt => Std.Asymm.asymm k k hlt hlt⟩
  by_cases hk : k' = k
  · rw [if_pos hk]
    exact get?_eq_some_iff.mpr (mem_entries_insert_iff.mpr (.inl (Prod.ext hk rfl)))
  · have hmem (v' : α) : (k', v') ∈ (m.insert k v).entries ↔ (k', v') ∈ m.entries := by
      rw [mem_entries_insert_iff, Prod.mk.injEq]
      tauto
    rw [if_neg hk]
    apply Option.ext
    intro v'
    rw [get?_eq_some_iff, get?_eq_some_iff, hmem]

/-- A new value at a key that is there leaves the keys as they are. -/
lemma keys_insert_of_mem {m : SortedMap κ α} {k : κ} (h : k ∈ m.keys) (v : α) :
    (m.insert k v).keys = m.keys := by
  have hsorted (m : SortedMap κ α) : m.keys.Pairwise (· < ·) := List.pairwise_map.mpr m.sorted
  have hirrefl : Std.Irrefl (· < · : κ → κ → Prop) := ⟨fun k hlt => Std.Asymm.asymm k k hlt hlt⟩
  have hantisymm : Std.Antisymm (· < · : κ → κ → Prop) :=
    ⟨fun k k' hlt hgt => absurd hgt (Std.Asymm.asymm k k' hlt)⟩
  refine (hsorted _).eq_of_mem_iff (hsorted m) fun k' => ?_
  simp only [SortedMap.keys, List.mem_map, mem_entries_insert_iff] at h ⊢
  constructor
  · rintro ⟨e, rfl | ⟨he, -⟩, rfl⟩
    · exact h
    · exact ⟨e, he, rfl⟩
  · rintro ⟨e, he, rfl⟩
    by_cases hk : e.1 = k
    · exact ⟨(k, v), .inl rfl, hk.symm⟩
    · exact ⟨e, .inr ⟨he, hk⟩, rfl⟩

/-- Inserting keys with values of their own adds these entries and keeps those of other keys. -/
lemma mem_foldl_insert [DecidableEq κ] (f : κ → α) (ks : List κ) (m : SortedMap κ α) (e : κ × α) :
    e ∈ (ks.foldl (fun m k => m.insert k (f k)) m).entries ↔
      e.1 ∈ ks ∧ e.2 = f e.1 ∨ e.1 ∉ ks ∧ e ∈ m.entries := by
  induction ks generalizing m with
  | nil => simp
  | cons k ks ih =>
    obtain ⟨k', v'⟩ := e
    rw [List.foldl_cons, ih, mem_entries_insert_iff, List.mem_cons, Prod.mk.injEq]
    by_cases hk : k' = k
    · subst hk
      tauto
    · tauto

/-! ## Maps of lists -/

omit [Std.Trichotomous (· < · : κ → κ → Prop)] in
lemma entries_foldl_insert {m : SortedMap κ α} {l : List (κ × α)}
    (h : (m.entries ++ l).Pairwise fun a b => a.1 < b.1) :
    (l.foldl (fun m entry => m.insert entry.1 entry.2) m).entries = m.entries ++ l := by
  induction l generalizing m with
  | nil => exact (List.append_nil m.entries).symm
  | cons entry l ih =>
    have hlast (e : κ × α) (he : e ∈ m.entries) : e.1 < entry.1 :=
      (List.pairwise_append.mp h).2.2 e he entry List.mem_cons_self
    have hinsert : (m.insert entry.1 entry.2).entries = m.entries ++ [entry] := by
      rw [SortedMap.entries_insert, SortedMap.insertEntry_eq_append entry.2 hlast]
    have hnext : ((m.insert entry.1 entry.2).entries ++ l).Pairwise fun a b => a.1 < b.1 := by
      rwa [hinsert, List.append_assoc, List.singleton_append]
    rw [List.foldl_cons, ih hnext, hinsert, List.append_assoc, List.singleton_append]

omit [Std.Trichotomous (· < · : κ → κ → Prop)] in
/-- Entries in the order of their keys stay as they are. -/
theorem entries_ofList {l : List (κ × α)} (h : l.Pairwise fun a b => a.1 < b.1) :
    (SortedMap.ofList l).entries = l :=
  entries_foldl_insert (m := SortedMap.empty) h

lemma mem_foldl_insert_iff {m : SortedMap κ α} {l : List (κ × α)} (h : (l.map Prod.fst).Nodup)
    {e : κ × α} : e ∈ (l.foldl (fun m entry => m.insert entry.1 entry.2) m).entries ↔
      e ∈ l ∨ e ∈ m.entries ∧ e.1 ∉ l.map Prod.fst := by
  induction l generalizing m with
  | nil => simp
  | cons entry l ih =>
    obtain ⟨hentry, hrest⟩ := List.nodup_cons.mp h
    rw [List.foldl_cons, ih hrest, mem_entries_insert_iff, List.map_cons]
    simp only [List.mem_cons, not_or]
    constructor
    · rintro (he | ⟨rfl | ⟨he, hne⟩, hnot⟩)
      · exact .inl (.inr he)
      · exact .inl (.inl rfl)
      · exact .inr ⟨he, hne, hnot⟩
    · rintro ((rfl | he) | ⟨he, hne, hnot⟩)
      · exact .inr ⟨.inl rfl, hentry⟩
      · exact .inl he
      · exact .inr ⟨.inr ⟨he, hne⟩, hnot⟩

/-- A map of entries with keys of their own holds exactly these. -/
theorem mem_ofList_iff {l : List (κ × α)} (h : (l.map Prod.fst).Nodup) {e : κ × α} :
    e ∈ (SortedMap.ofList l).entries ↔ e ∈ l := by
  refine (mem_foldl_insert_iff (m := SortedMap.empty) h).trans ⟨fun he => ?_, .inl⟩
  exact he.resolve_right fun h => List.not_mem_nil h.1

end Insertion

end TestCatalog.Proofs
