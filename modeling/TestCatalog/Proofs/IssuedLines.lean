import TestCatalog.Proofs.IssuedHeaders
import TestCatalog.Proofs.Lines

/-!
# Issued lines of a source

Of the lines of a source some are issued and all others are kept. Cleaning the lines, cutting them
at a marker and joining them again keep this relation.
-/

namespace TestCatalog.Proofs

/-- From line number `k` on, the lines for which a name is due are issued and the others are kept. -/
inductive IssuedLines (d : Dialect) (number : Text → ℕ) (Due : ℕ → Text → Prop) :
    ℕ → List Text → List Text → Prop where
  | nil (k : ℕ) : IssuedLines d number Due k [] []
  | keep {k : ℕ} {line : Text} {ls ls' : List Text} (hkeep : ∀ name, ¬ Due k name)
      (below : IssuedLines d number Due (k + 1) ls ls') :
      IssuedLines d number Due k (line :: ls) (line :: ls')
  | issue {k : ℕ} {name line line' : Text} {ls ls' : List Text} (hdue : Due k name)
      (hline : Issued d (number name) name.length line line')
      (below : IssuedLines d number Due (k + 1) ls ls') :
      IssuedLines d number Due k (line :: ls) (line' :: ls')

variable {d : Dialect} {number : Text → ℕ} {Due Due' : ℕ → Text → Prop} {k : ℕ}
variable {ls ls' : List Text}

namespace IssuedLines

lemma refl (hdue : ∀ j name, ¬ Due j name) (k : ℕ) (ls : List Text) :
    IssuedLines d number Due k ls ls := by
  induction ls generalizing k with
  | nil => exact .nil k
  | cons line ls ih => exact .keep (hdue k) (ih (k + 1))

lemma cons {line line' : Text} (h : IssuedLines d number Due k [line] [line'])
    (below : IssuedLines d number Due (k + 1) ls ls') :
    IssuedLines d number Due k (line :: ls) (line' :: ls') := by
  cases h with
  | keep hkeep _ => exact .keep hkeep below
  | issue hdue hline _ => exact .issue hdue hline below

lemma exists_cons {line : Text} (h : IssuedLines d number Due k (line :: ls) ls') :
    ∃ line' rest, ls' = line' :: rest ∧ IssuedLines d number Due k [line] [line'] ∧
      IssuedLines d number Due (k + 1) ls rest := by
  cases h with
  | keep hkeep below => exact ⟨_, _, rfl, .keep hkeep (.nil _), below⟩
  | issue hdue hline below => exact ⟨_, _, rfl, .issue hdue hline (.nil _), below⟩

/-- The relation line by line: of each line it matters only that it is kept or issued. -/
@[elab_as_elim]
theorem cons_induction
    {motive : (k : ℕ) → (ls ls' : List Text) → IssuedLines d number Due k ls ls' → Prop}
    (nil : ∀ k, motive k [] [] (.nil k))
    (cons : ∀ k line line' ls ls' (hline : IssuedLines d number Due k [line] [line'])
      (below : IssuedLines d number Due (k + 1) ls ls'), motive (k + 1) ls ls' below →
      motive k (line :: ls) (line' :: ls') (hline.cons below))
    (h : IssuedLines d number Due k ls ls') : motive k ls ls' h := by
  induction h with
  | nil k => exact nil k
  | keep hkeep below ih => exact cons _ _ _ _ _ (.keep hkeep (.nil _)) below ih
  | issue hdue hline below ih => exact cons _ _ _ _ _ (.issue hdue hline (.nil _)) below ih

section Line

variable {line line' : Text}

lemma map_line {f : Text → Text}
    (hf : ∀ n m t t', Issued d n m t t' → Issued d n m (f t) (f t'))
    (h : IssuedLines d number Due k [line] [line']) :
    IssuedLines d number Due k [f line] [f line'] := by
  cases h with
  | keep hkeep below => exact .keep hkeep (.nil _)
  | issue hdue hline below => exact .issue hdue (hf _ _ _ _ hline) (.nil _)

lemma apply_line {p : Text → Bool} (hp : ∀ n m t t', Issued d n m t t' → p t' = p t)
    (h : IssuedLines d number Due k [line] [line']) : p line' = p line := by
  cases h with
  | keep hkeep below => rfl
  | issue hdue hline below => exact hp _ _ _ _ hline

lemma respelled_line (h : IssuedLines d number Due k [line] [line']) : Respelled d line line' := by
  cases h with
  | keep hkeep below => exact respelled_refl d line
  | issue hdue hline below => exact hline.respelled

end Line

lemma map {f : Text → Text}
    (hf : ∀ n m t t', Issued d n m t t' → Issued d n m (f t) (f t'))
    (h : IssuedLines d number Due k ls ls') :
    IssuedLines d number Due k (ls.map f) (ls'.map f) := by
  induction h using cons_induction with
  | nil k => exact .nil k
  | cons k line line' ls ls' hline below ih => exact (hline.map_line hf).cons ih

lemma congr (hdue : ∀ j name, k ≤ j → j < k + ls.length → (Due j name ↔ Due' j name))
    (h : IssuedLines d number Due k ls ls') : IssuedLines d number Due' k ls ls' := by
  induction h with
  | nil k => exact .nil k
  | @keep k line ls ls' hkeep below ih =>
    have hlt : k < k + (line :: ls).length := by simp
    refine .keep (fun name h => hkeep name ((hdue k name k.le_refl hlt).mpr h)) (ih ?_)
    intro j name hj hj'
    exact hdue j name (by omega) (by rw [List.length_cons]; omega)
  | @issue k name line line' ls ls' h hline below ih =>
    have hlt : k < k + (line :: ls).length := by simp
    refine .issue ((hdue k name k.le_refl hlt).mp h) hline (ih ?_)
    intro j name hj hj'
    exact hdue j name (by omega) (by rw [List.length_cons]; omega)

lemma eq_of_not_due (hdue : ∀ j name, k ≤ j → j < k + ls.length → ¬ Due j name)
    (h : IssuedLines d number Due k ls ls') : ls' = ls := by
  induction h with
  | nil k => rfl
  | @keep k line ls ls' hkeep below ih =>
    rw [ih fun j name hj hj' => hdue j name (by omega) (by rw [List.length_cons]; omega)]
  | @issue k name line line' ls ls' h hline below ih =>
    exact absurd h (hdue k name k.le_refl (by simp))

lemma split {x y : List Text} (h : IssuedLines d number Due k (x ++ y) ls') :
    ∃ x' y', ls' = x' ++ y' ∧ IssuedLines d number Due k x x' ∧
      IssuedLines d number Due (k + x.length) y y' := by
  induction x generalizing k ls' with
  | nil => exact ⟨[], ls', rfl, .nil k, h⟩
  | cons line x ih =>
    have hnumber : k + (line :: x).length = k + 1 + x.length := by
      rw [List.length_cons]
      omega
    obtain ⟨line', rest, rfl, hline, below⟩ := h.exists_cons
    obtain ⟨x', y', rfl, hx, hy⟩ := ih below
    rw [hnumber]
    exact ⟨line' :: x', y', rfl, hline.cons hx, hy⟩

lemma tail (h : IssuedLines d number Due k ls ls') :
    IssuedLines d number Due (k + 1) ls.tail ls'.tail := by
  cases h with
  | nil => exact .nil _
  | keep hkeep below => exact below
  | issue hdue hline below => exact below

section Predicate

variable {p : Text → Bool} (hp : ∀ n m t t', Issued d n m t t' → p t' = p t)
include hp

lemma dropWhile (h : IssuedLines d number Due k ls ls') :
    IssuedLines d number Due (k + (ls.takeWhile p).length) (ls.dropWhile p) (ls'.dropWhile p) := by
  induction h using cons_induction with
  | nil k => exact .nil _
  | cons k line line' ls ls' hline below ih =>
    have hsame := hline.apply_line hp
    by_cases hp : p line = true
    · rw [List.takeWhile_cons_of_pos hp, List.dropWhile_cons_of_pos hp,
        List.dropWhile_cons_of_pos (hsame.trans hp), List.length_cons, Nat.add_comm _ 1,
        ← Nat.add_assoc]
      exact ih
    · have hp' : ¬ p line' = true := by rwa [hsame]
      rw [List.takeWhile_cons_of_neg hp, List.dropWhile_cons_of_neg hp,
        List.dropWhile_cons_of_neg hp']
      exact hline.cons below

lemma takeWhile (h : IssuedLines d number Due k ls ls') :
    IssuedLines d number Due k (ls.takeWhile p) (ls'.takeWhile p) := by
  induction h using cons_induction with
  | nil k => exact .nil _
  | cons k line line' ls ls' hline below ih =>
    have hsame := hline.apply_line hp
    by_cases hp : p line = true
    · rw [List.takeWhile_cons_of_pos hp, List.takeWhile_cons_of_pos (hsame.trans hp)]
      exact hline.cons ih
    · have hp' : ¬ p line' = true := by rwa [hsame]
      rw [List.takeWhile_cons_of_neg hp, List.takeWhile_cons_of_neg hp']
      exact .nil k

end Predicate

lemma eq_nil_iff (h : IssuedLines d number Due k ls ls') : ls = [] ↔ ls' = [] := by
  cases h <;> simp

lemma dropEmptyLast (h : IssuedLines d number Due k ls ls') :
    IssuedLines d number Due k (dropEmptyLast ls) (dropEmptyLast ls') := by
  induction h using cons_induction with
  | nil k => exact .nil k
  | cons k line line' ls ls' hline below ih =>
    by_cases hls : ls = []
    · obtain rfl := below.eq_nil_iff.mp hls
      subst hls
      have hnil := respelled_eq_nil_iff hline.respelled_line
      rw [dropEmptyLast_singleton, dropEmptyLast_singleton]
      by_cases hempty : line = []
      · rw [if_pos hempty, if_pos (hnil.mp hempty)]
        exact .nil k
      · rwa [if_neg hempty, if_neg (mt hnil.mpr hempty)]
    · rw [dropEmptyLast_cons _ hls, dropEmptyLast_cons _ (mt below.eq_nil_iff.mpr hls)]
      exact hline.cons ih

lemma respelled_join (h : IssuedLines d number Due k ls ls') :
    Respelled d (Text.join "\n" ls) (Text.join "\n" ls') := by
  induction h using cons_induction with
  | nil k => exact .nil
  | cons k line line' ls ls' hline below ih =>
    have hline := hline.respelled_line
    by_cases hls : ls = []
    · obtain rfl := below.eq_nil_iff.mp hls
      subst hls
      simpa [Text.join] using hline
    · rw [join_cons _ line hls, join_cons _ line' (mt below.eq_nil_iff.mpr hls)]
      exact respelled_append hline (respelled_append (respelled_refl d _) ih)

end IssuedLines

end TestCatalog.Proofs
