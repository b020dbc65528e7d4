/-!
# Sorted maps

A finite map kept as the list of its entries in strictly increasing order of their keys, so that
equal maps are equal lists and every listing comes out in key order.
-/

namespace TestCatalog

/-- A finite map; the keys increase strictly along the entries. -/
structure SortedMap (κ α : Type) [LT κ] where
  entries : List (κ × α)
  sorted : entries.Pairwise fun a b => a.1 < b.1

namespace SortedMap

variable {κ α : Type} [LT κ]

instance [DecidableEq κ] [DecidableEq α] : DecidableEq (SortedMap κ α) := fun a b =>
  decidable_of_iff (a.entries = b.entries)
    ⟨fun h => by cases a; cases b; cases h; rfl, fun h => h ▸ rfl⟩

theorem ext_entries {a b : SortedMap κ α} (h : a.entries = b.entries) : a = b := by
  cases a; cases b; cases h; rfl

def empty : SortedMap κ α :=
  ⟨[], .nil⟩

instance : EmptyCollection (SortedMap κ α) := ⟨empty⟩

@[simp]
theorem entries_empty : (∅ : SortedMap κ α).entries = [] := rfl

instance : Inhabited (SortedMap κ α) := ⟨empty⟩

def keys (m : SortedMap κ α) : List κ :=
  m.entries.map Prod.fst

def values (m : SortedMap κ α) : List α :=
  m.entries.map Prod.snd

def isEmpty (m : SortedMap κ α) : Bool :=
  m.entries.isEmpty

def size (m : SortedMap κ α) : Nat :=
  m.entries.length

def get? [DecidableEq κ] (m : SortedMap κ α) (k : κ) : Option α :=
  (m.entries.find? fun entry => entry.1 = k).map Prod.snd

def contains [DecidableEq κ] (m : SortedMap κ α) (k : κ) : Bool :=
  (m.get? k).isSome

/-! ## Insertion -/

/-- Puts an entry at its place; a key that is there keeps its place and takes the new value. -/
def insertEntry [DecidableLT κ] (k : κ) (v : α) : List (κ × α) → List (κ × α)
  | [] => [(k, v)]
  | (k₁, v₁) :: rest =>
    if k < k₁ then (k, v) :: (k₁, v₁) :: rest
    else if k₁ < k then (k₁, v₁) :: insertEntry k v rest
    else (k₁, v) :: rest

theorem key_mem_insertEntry [DecidableLT κ] {k : κ} {v : α} {l : List (κ × α)} {e : κ × α}
    (h : e ∈ insertEntry k v l) : e.1 = k ∨ ∃ e' ∈ l, e'.1 = e.1 := by
  induction l with
  | nil => simp_all [insertEntry]
  | cons head rest ih =>
    obtain ⟨k₁, v₁⟩ := head
    rw [insertEntry] at h
    split at h
    · rcases List.mem_cons.1 h with rfl | h
      · exact .inl rfl
      · exact .inr ⟨e, h, rfl⟩
    · split at h
      · rcases List.mem_cons.1 h with rfl | h
        · exact .inr ⟨_, List.mem_cons_self, rfl⟩
        · rcases ih h with h | ⟨e', h, h'⟩
          · exact .inl h
          · exact .inr ⟨e', List.mem_cons_of_mem _ h, h'⟩
      · rcases List.mem_cons.1 h with rfl | h
        · exact .inr ⟨_, List.mem_cons_self, rfl⟩
        · exact .inr ⟨e, List.mem_cons_of_mem _ h, rfl⟩

theorem pairwise_insertEntry [DecidableLT κ]
    [Trans (· < · : κ → κ → Prop) (· < · : κ → κ → Prop) (· < · : κ → κ → Prop)]
    (k : κ) (v : α) {l : List (κ × α)} (h : l.Pairwise fun a b => a.1 < b.1) :
    (insertEntry k v l).Pairwise fun a b => a.1 < b.1 := by
  induction l with
  | nil => simp [insertEntry]
  | cons head rest ih =>
    obtain ⟨k₁, v₁⟩ := head
    obtain ⟨first, rest_sorted⟩ := List.pairwise_cons.1 h
    rw [insertEntry]
    split
    next lt =>
      refine List.pairwise_cons.2 ⟨fun e he => ?_, h⟩
      rcases List.mem_cons.1 he with rfl | he
      · exact lt
      · exact Trans.trans lt (first e he)
    split
    next lt =>
      refine List.pairwise_cons.2 ⟨fun e he => ?_, ih rest_sorted⟩
      rcases key_mem_insertEntry he with h | ⟨e', he', h⟩
      · exact h ▸ lt
      · exact h ▸ first e' he'
    · exact List.pairwise_cons.2 ⟨first, rest_sorted⟩

variable [DecidableLT κ]
  [Trans (· < · : κ → κ → Prop) (· < · : κ → κ → Prop) (· < · : κ → κ → Prop)]

omit [DecidableLT κ] in
theorem pairwise_append_of_last_lt {k : κ} (v : α) {l : List (κ × α)}
    (h : l.Pairwise fun a b => a.1 < b.1) (last_lt : ∀ e ∈ l.getLast?, e.1 < k) :
    (l ++ [(k, v)]).Pairwise fun a b => a.1 < b.1 := by
  refine List.pairwise_append.2 ⟨h, List.pairwise_singleton _ _, fun e he e' he' => ?_⟩
  obtain rfl := List.mem_singleton.1 he'
  obtain ⟨start, last, rfl⟩ := List.eq_nil_or_concat l |>.resolve_left (List.ne_nil_of_mem he)
  rw [List.concat_eq_append] at h he last_lt
  have last_lt := last_lt last (by simp)
  rcases List.mem_append.1 he with he | he
  · exact Trans.trans ((List.pairwise_append.1 h).2.2 e he last (by simp)) last_lt
  · exact List.mem_singleton.1 he ▸ last_lt

omit [Trans (· < · : κ → κ → Prop) (· < · : κ → κ → Prop) (· < · : κ → κ → Prop)] in
theorem insertEntry_eq_append [Std.Asymm (· < · : κ → κ → Prop)] {k : κ} (v : α)
    {l : List (κ × α)} (h : ∀ e ∈ l, e.1 < k) : insertEntry k v l = l ++ [(k, v)] := by
  induction l with
  | nil => rfl
  | cons head rest ih =>
    have head_lt := h head List.mem_cons_self
    rw [insertEntry, if_neg (Std.Asymm.asymm _ _ head_lt), if_pos head_lt,
      ih fun e he => h e (List.mem_cons_of_mem _ he), List.cons_append]

/-- Sets the value at a key. A key beyond all others goes to the end at once. -/
def insert (m : SortedMap κ α) (k : κ) (v : α) : SortedMap κ α :=
  if h : ∀ e ∈ m.entries.getLast?, e.1 < k then
    ⟨m.entries ++ [(k, v)], pairwise_append_of_last_lt v m.sorted h⟩
  else ⟨insertEntry k v m.entries, pairwise_insertEntry k v m.sorted⟩

theorem entries_insert [Std.Asymm (· < · : κ → κ → Prop)] (m : SortedMap κ α) (k : κ) (v : α) :
    (m.insert k v).entries = insertEntry k v m.entries := by
  rw [insert]
  split
  next h =>
    refine (insertEntry_eq_append v fun e he => ?_).symm
    have := pairwise_append_of_last_lt v m.sorted h
    exact (List.pairwise_append.1 this).2.2 e he (k, v) List.mem_cons_self
  · rfl

/-- Inserts the entries from the left, so that the last value given for a key stays. -/
def ofList (l : List (κ × α)) : SortedMap κ α :=
  l.foldl (fun m entry => m.insert entry.1 entry.2) empty

/-! ## Removal -/

omit [DecidableLT κ]
  [Trans (· < · : κ → κ → Prop) (· < · : κ → κ → Prop) (· < · : κ → κ → Prop)]

def erase [DecidableEq κ] (m : SortedMap κ α) (k : κ) : SortedMap κ α :=
  ⟨m.entries.filter fun entry => entry.1 ≠ k, m.sorted.filter _⟩

end SortedMap

end TestCatalog
