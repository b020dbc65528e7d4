import Mathlib.Tactic.Common

/-!
# Prefix codes

Where the pieces that values are written as can be told apart from the left, so can the lists of
values: a sequence of pieces, up to a place where no further piece begins, is read in one way only.
-/

namespace TestCatalog.Proofs

variable {α β : Type}

/-- A part without `p` ends where the first element with `p` stands, or at the end. -/
lemma append_inj_of_head? {p : α → Prop} {x x' u u' : List α} (hx : ∀ c ∈ x, ¬ p c)
    (hx' : ∀ c ∈ x', ¬ p c) (hu : ∀ c ∈ u.head?, p c) (hu' : ∀ c ∈ u'.head?, p c)
    (h : x ++ u = x' ++ u') : x = x' ∧ u = u' := by
  rcases List.append_eq_append_iff.mp h with ⟨v, rfl, rfl⟩ | ⟨v, rfl, rfl⟩
  · cases v with
    | nil => exact ⟨(List.append_nil x).symm, rfl⟩
    | cons c v => exact absurd (hu c rfl) (hx' c (List.mem_append_right x List.mem_cons_self))
  · cases v with
    | nil => exact ⟨List.append_nil x', rfl⟩
    | cons c v => exact absurd (hu' c rfl) (hx c (List.mem_append_right x' List.mem_cons_self))

/-- Where neither of two words begins with the other, no list begins with both. -/
lemma not_prefix_append {word word' : List α} (h : ¬ word <+: word' ∧ ¬ word' <+: word)
    (u : List α) : ¬ word <+: word' ++ u := fun hprefix =>
  (List.prefix_or_prefix_of_prefix hprefix (List.prefix_append word' u)).elim h.1 h.2

/-- Pieces for the values, one after the other; `R x b` says that the piece `x` stands for `b`. -/
inductive Coded (R : List α → β → Prop) : List α → List β → Prop where
  | nil : Coded R [] []
  | cons {x y : List α} {b : β} {bs : List β} (head : R x b) (tail : Coded R y bs) :
      Coded R (x ++ y) (b :: bs)

/-- Pieces that can be told apart from the left. `After` holds of what may follow a piece, and
`Stop` of what may follow the last one, where no piece begins. -/
structure PrefixCode (R : List α → β → Prop) (After Stop : List α → Prop) : Prop where
  unique : ∀ {x x' u u' b b'}, R x b → R x' b' → After u → After u' → x ++ u = x' ++ u' →
    b = b' ∧ u = u'
  after : ∀ {x u b}, R x b → After u → After (x ++ u)
  after_stop : ∀ {u}, Stop u → After u
  stop : ∀ {x u b}, R x b → After u → ¬ Stop (x ++ u)

variable {R : List α → β → Prop} {After Stop : List α → Prop} {x x' u u' : List α}
  {bs bs' : List β}

lemma coded_flatMap {piece : β → List α} (h : ∀ b ∈ bs, R (piece b) b) :
    Coded R (bs.flatMap piece) bs := by
  induction bs with
  | nil => exact .nil
  | cons b bs ih =>
    obtain ⟨hb, hbs⟩ := List.forall_mem_cons.mp h
    rw [List.flatMap_cons]
    exact .cons hb (ih hbs)

/-- What each piece makes of the elements of a list holds of the values that the list stands for. -/
lemma Coded.forall_mem {P : α → Prop} {Q : β → Prop} (h : Coded R x bs) (hx : ∀ c ∈ x, P c)
    (hpiece : ∀ y b, R y b → (∀ c ∈ y, P c) → Q b) : ∀ b ∈ bs, Q b := by
  induction h with
  | nil => simp
  | cons head tail ih =>
    obtain ⟨hhead, htail⟩ := List.forall_mem_append.mp hx
    exact List.forall_mem_cons.mpr ⟨hpiece _ _ head hhead, ih htail⟩

lemma PrefixCode.after_coded (h : PrefixCode R After Stop) (hx : Coded R x bs) (hu : After u) :
    After (x ++ u) := by
  induction hx with
  | nil => exact hu
  | cons head tail ih =>
    rw [List.append_assoc]
    exact h.after head ih

/-- The pieces before a stop are read in one way only. -/
theorem PrefixCode.unique_list (h : PrefixCode R After Stop) (hx : Coded R x bs)
    (hx' : Coded R x' bs') (hu : Stop u) (hu' : Stop u') (heq : x ++ u = x' ++ u') :
    bs = bs' ∧ u = u' := by
  induction hx generalizing x' bs' with
  | nil =>
    cases hx' with
    | nil => exact ⟨rfl, heq⟩
    | cons head tail =>
      rw [List.nil_append, List.append_assoc] at heq
      exact absurd (heq ▸ hu) (h.stop head (h.after_coded tail (h.after_stop hu')))
  | cons head tail ih =>
    rw [List.append_assoc] at heq
    have hafter := h.after_coded tail (h.after_stop hu)
    cases hx' with
    | nil => exact absurd (heq ▸ hu') (h.stop head hafter)
    | cons head' tail' =>
      rw [List.append_assoc] at heq
      obtain ⟨rfl, hrest⟩ :=
        h.unique head head' hafter (h.after_coded tail' (h.after_stop hu')) heq
      obtain ⟨rfl, hend⟩ := ih tail' hrest
      exact ⟨rfl, hend⟩

end TestCatalog.Proofs
