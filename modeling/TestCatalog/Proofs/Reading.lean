import Mathlib.Tactic.Common
import TestCatalog.Document.Reader

/-!
# Successful and local readings

`Yields r c a c'` forgets what a reader reports and keeps what it returns and where it stops. A
reader is `Steady` if it moves forward and if what it makes of its lines depends neither on their
numbers nor on the lines below the place where it stops. Both notions pass through sequences, and a
steady reader that leaves lines `Takes` those that it took.
-/

namespace TestCatalog.Proofs

variable {α β : Type}

/-- The reader succeeds at `c` with the value `a` and stops at `c'`. -/
def Yields (r : Reader α) (c : Cursor) (a : α) (c' : Cursor) : Prop :=
  (r c).result = .ok a ∧ (r c).cursor = c'

/-- The reader takes exactly the lines `ls`, whatever follows them, and returns `a`. -/
def Takes (r : Reader α) (ls : List Text) (a : α) : Prop :=
  ∀ n rest, ∃ m, Yields r ⟨n, ls ++ rest⟩ a ⟨m, rest⟩

/-- If the reader stops before `y` it does so before any other lines, unless it stopped because
there were no more. -/
def LocalAt (r : Reader α) (ls : List Text) : Prop :=
  ∀ (n m : ℕ) (x y y' : List Text), ls = x ++ y → (r ⟨n, ls⟩).cursor.rest = y →
    (y = [] → y' = []) →
      (r ⟨m, x ++ y'⟩).result = (r ⟨n, ls⟩).result ∧ (r ⟨m, x ++ y'⟩).cursor.rest = y'

/-- A steady reader moves forward and is local at all lines. -/
structure Steady (r : Reader α) : Prop where
  forward : r.Forward
  localAt : ∀ ls, LocalAt r ls

lemma Yields.eq {r : Reader α} {c c' : Cursor} {a : α} (h : Yields r c a c') :
    r c = ⟨.ok a, c', (r c).journal⟩ := by
  obtain ⟨hresult, hcursor⟩ := h
  rw [← hresult, ← hcursor]

lemma Takes.yields {r : Reader α} {ls : List Text} {a : α} (h : Takes r ls a)
    (forward : r.Forward) (n : ℕ) (rest : List Text) : Yields r ⟨n, ls ++ rest⟩ a ⟨n + ls.length, rest⟩ := by
  obtain ⟨m, hm⟩ := h n rest
  obtain ⟨x, hx, hnumber⟩ := hm.2 ▸ forward ⟨n, ls ++ rest⟩
  have hx : ls ++ rest = x ++ rest := hx
  obtain rfl := List.append_cancel_right hx
  have hnumber : m = n + ls.length := hnumber
  rwa [hnumber] at hm

/-- What a reader takes from the front of some lines is determined by the lines. -/
theorem Takes.unique {r : Reader α} {x x' u u' : List Text} {v v' : α} (h : Takes r x v)
    (h' : Takes r x' v') (hlines : x ++ u = x' ++ u') : v = v' ∧ u = u' := by
  obtain ⟨m, hm⟩ := h 0 u
  obtain ⟨m', hm'⟩ := h' 0 u'
  rw [hlines] at hm
  exact ⟨Except.ok.inj (hm.1.symm.trans hm'.1), congrArg Cursor.rest (hm.2.symm.trans hm'.2)⟩

/-! ## Sequences -/

lemma bind_of_ok {r : Reader α} {c : Cursor} {a : α} (f : α → Reader β)
    (h : (r c).result = .ok a) :
    ((r >>= f) c).result = (f a (r c).cursor).result ∧
      ((r >>= f) c).cursor = (f a (r c).cursor).cursor := by
  simp only [Bind.bind]
  rcases hr : r c with ⟨result, c', journal⟩
  rw [hr] at h
  obtain rfl : result = .ok a := h
  exact ⟨rfl, rfl⟩

lemma bind_of_error {r : Reader α} {c : Cursor} {e : GrammarError} (f : α → Reader β)
    (h : (r c).result = .error e) :
    ((r >>= f) c).result = .error e ∧ ((r >>= f) c).cursor = (r c).cursor := by
  simp only [Bind.bind]
  rcases hr : r c with ⟨result, c', journal⟩
  rw [hr] at h
  obtain rfl : result = .error e := h
  exact ⟨rfl, rfl⟩

lemma bind_of_yields {r : Reader α} {f : α → Reader β} {c c' : Cursor} {a : α}
    (h : Yields r c a c') :
    ((r >>= f) c).result = (f a c').result ∧ ((r >>= f) c).cursor = (f a c').cursor := by
  obtain ⟨hresult, rfl⟩ := h
  exact bind_of_ok f hresult

lemma result_bind_of_yields {r : Reader α} {f : α → Reader β} {c c' : Cursor} {a : α}
    (h : Yields r c a c') : ((r >>= f) c).result = (f a c').result :=
  (bind_of_yields h).1

lemma journal_bind_of_yields {r : Reader α} {f : α → Reader β} {c c' : Cursor} {a : α}
    (h : Yields r c a c') : ((r >>= f) c).journal = (r c).journal ++ (f a c').journal := by
  simp only [Bind.bind]
  rw [h.eq]

lemma journal_bind_of_error {r : Reader α} {c : Cursor} {e : GrammarError} (f : α → Reader β)
    (h : (r c).result = .error e) : ((r >>= f) c).journal = (r c).journal := by
  simp only [Bind.bind]
  rcases hr : r c with ⟨result, c', journal⟩
  rw [hr] at h
  obtain rfl : result = .error e := h
  rfl

theorem yields_bind_iff {r : Reader α} {f : α → Reader β} {c c'' : Cursor} {b : β} :
    Yields (r >>= f) c b c'' ↔ ∃ a c', Yields r c a c' ∧ Yields (f a) c' b c'' := by
  constructor
  · rintro ⟨hresult, hcursor⟩
    cases hr : (r c).result with
    | error e => rw [(bind_of_error f hr).1] at hresult; cases hresult
    | ok a =>
      rw [(bind_of_ok f hr).1] at hresult
      rw [(bind_of_ok f hr).2] at hcursor
      exact ⟨a, (r c).cursor, ⟨hr, rfl⟩, hresult, hcursor⟩
  · rintro ⟨a, c', ⟨hr, rfl⟩, hresult, hcursor⟩
    exact ⟨(bind_of_ok f hr).1.trans hresult, (bind_of_ok f hr).2.trans hcursor⟩

/-- If what a specification accepts is read, what it rejects is an error, and it decides on the
lines, then reading accepts and rejects exactly what the specification does. -/
theorem yields_iff_and_error_iff {r : Reader α} {f : α → β} {c : Cursor}
    {Accepted : β → Cursor → Prop} {Rejected : GrammarError → Prop}
    (haccepted : ∀ {b c'}, Accepted b c' → ∃ a, Yields r c a c' ∧ f a = b)
    (hrejected : ∀ {e}, Rejected e → (r c).result = .error e)
    (htotal : (∃ b c', Accepted b c') ∨ ∃ e, Rejected e) :
    (∀ b c', (∃ a, Yields r c a c' ∧ f a = b) ↔ Accepted b c') ∧
      ∀ e, (r c).result = .error e ↔ Rejected e := by
  refine ⟨fun b c' => ⟨?_, haccepted⟩, fun e => ⟨?_, hrejected⟩⟩
  · rintro ⟨a, ⟨hresult, hcursor⟩, rfl⟩
    rcases htotal with ⟨b, c'', h⟩ | ⟨e, h⟩
    · obtain ⟨a', ⟨hresult', hcursor'⟩, rfl⟩ := haccepted h
      obtain rfl := Except.ok.inj (hresult.symm.trans hresult')
      obtain rfl := hcursor.symm.trans hcursor'
      exact h
    · cases hresult.symm.trans (hrejected h)
  · intro herror
    rcases htotal with ⟨b, c', h⟩ | ⟨e', h⟩
    · obtain ⟨a, ⟨hresult, -⟩, -⟩ := haccepted h
      cases herror.symm.trans hresult
    · obtain rfl := Except.error.inj (herror.symm.trans (hrejected h))
      exact h

lemma Yields.reaches {r : Reader α} (hr : r.Forward) {c c' : Cursor} {a : α}
    (h : Yields r c a c') : c.Reaches c' :=
  h.2 ▸ hr c

/-- A reader that moves forward takes a piece of its lines. -/
lemma Yields.exists_lines {r : Reader α} (hr : r.Forward) {n : ℕ} {ls : List Text} {a : α}
    {c : Cursor} (h : Yields r ⟨n, ls⟩ a c) : ∃ x y, ls = x ++ y ∧ c = ⟨n + x.length, y⟩ := by
  obtain ⟨m, y⟩ := c
  obtain ⟨x, hrest, hnumber⟩ := h.reaches hr
  exact ⟨x, y, hrest, congrArg (Cursor.mk · y) hnumber⟩

theorem localAt_bind {r : Reader α} {f : α → Reader β} {ls : List Text} (hr : LocalAt r ls)
    (forward : r.Forward) (hf : ∀ n a c, Yields r ⟨n, ls⟩ a c → LocalAt (f a) c.rest)
    (forward' : ∀ a, (f a).Forward) : LocalAt (r >>= f) ls := by
  intro n m x y y' hls hrest hy
  cases hv : (r ⟨n, ls⟩).result with
  | error e =>
    rw [(bind_of_error f hv).2] at hrest
    obtain ⟨hresult, hrest'⟩ := hr n m x y y' hls hrest hy
    rw [hv] at hresult
    rw [(bind_of_error f hresult).1, (bind_of_error f hresult).2, (bind_of_error f hv).1]
    exact ⟨rfl, hrest'⟩
  | ok a =>
    rw [(bind_of_ok f hv).2] at hrest
    obtain ⟨x₁, h₁, -⟩ := forward ⟨n, ls⟩
    obtain ⟨x₂, h₂, -⟩ := forward' a (r ⟨n, ls⟩).cursor
    rw [hrest] at h₂
    have hx : x = x₁ ++ x₂ := by
      have hls' : ls = x₁ ++ x₂ ++ y := by rw [List.append_assoc, ← h₂]; exact h₁
      exact List.append_cancel_right (hls.symm.trans hls')
    have hmiddle : (r ⟨n, ls⟩).cursor.rest = [] → x₂ ++ y' = [] := by
      intro hnil
      rw [hnil] at h₂
      obtain ⟨hx₂, hy₂⟩ := List.append_eq_nil_iff.mp h₂.symm
      rw [hx₂, hy hy₂]
      rfl
    obtain ⟨hresult, hrest'⟩ := hr n m x₁ _ (x₂ ++ y') h₁ rfl hmiddle
    rw [hv] at hresult
    rw [hx, List.append_assoc, (bind_of_ok f hresult).1, (bind_of_ok f hresult).2,
      (bind_of_ok f hv).1]
    rcases hc : (r ⟨m, x₁ ++ (x₂ ++ y')⟩).cursor with ⟨m', ls'⟩
    rw [hc] at hrest'
    obtain rfl : ls' = x₂ ++ y' := hrest'
    exact hf n a _ ⟨hv, rfl⟩ _ m' x₂ y y' h₂ hrest hy

theorem steady_bind {r : Reader α} {f : α → Reader β} (hr : Steady r) (hf : ∀ a, Steady (f a)) :
    Steady (r >>= f) where
  forward := Reader.forward_bind hr.forward fun a => (hf a).forward
  localAt := fun ls => localAt_bind (hr.localAt ls) hr.forward
    (fun _ a c _ => (hf a).localAt c.rest) fun a => (hf a).forward

/-- A steady reader that leaves lines takes those that it took. -/
theorem Yields.takes {r : Reader α} (hr : Steady r) {n k : ℕ} {x y : List Text} {a : α}
    (h : Yields r ⟨n, x ++ y⟩ a ⟨k, y⟩) (hy : y ≠ []) : Takes r x a := by
  obtain ⟨hresult, hcursor⟩ := h
  intro m y'
  have hrest : (r ⟨n, x ++ y⟩).cursor.rest = y := by rw [hcursor]
  obtain ⟨hresult', hrest'⟩ := hr.localAt _ n m x y y' rfl hrest fun hnil => absurd hnil hy
  refine ⟨(r ⟨m, x ++ y'⟩).cursor.lineNumber, hresult'.trans hresult, ?_⟩
  rcases hc : (r ⟨m, x ++ y'⟩).cursor with ⟨m', ls'⟩
  rw [hc] at hrest'
  exact congrArg _ hrest'

/-- What a steady reader makes of its lines does not depend on their numbers. -/
theorem Steady.renumber {r : Reader α} (hr : Steady r) (n m : ℕ) (ls : List Text) :
    (r ⟨m, ls⟩).result = (r ⟨n, ls⟩).result ∧
      (r ⟨m, ls⟩).cursor.rest = (r ⟨n, ls⟩).cursor.rest := by
  obtain ⟨x, hx, -⟩ := hr.forward ⟨n, ls⟩
  have hx : ls = x ++ (r ⟨n, ls⟩).cursor.rest := hx
  have h := hr.localAt ls n m x _ _ hx rfl id
  rwa [← hx] at h

lemma takes_bind {r : Reader α} {f : α → Reader β} {ls ls' : List Text} {a : α} {b : β}
    (hr : Takes r ls a) (hf : Takes (f a) ls' b) : Takes (r >>= f) (ls ++ ls') b := by
  intro n rest
  rw [List.append_assoc]
  obtain ⟨m, hm⟩ := hr n (ls' ++ rest)
  obtain ⟨k, hk⟩ := hf m rest
  exact ⟨k, yields_bind_iff.mpr ⟨a, _, hm, hk⟩⟩

/-! ## Readings of lists -/

/-- The reading `r` has the values `as` and goes on like `r'`. -/
def Prepends (as : List α) (r r' : Reading (List α)) : Prop :=
  r.result = r'.result.map (as ++ ·) ∧ r.cursor = r'.cursor

lemma prepends_nil (r : Reading (List α)) : Prepends [] r r := by
  refine ⟨?_, rfl⟩
  cases r.result <;> rfl

lemma Prepends.append {as bs : List α} {r r' r'' : Reading (List α)} (h : Prepends as r r')
    (h' : Prepends bs r' r'') : Prepends (as ++ bs) r r'' := by
  obtain ⟨hresult, hcursor⟩ := h
  obtain ⟨hresult', hcursor'⟩ := h'
  refine ⟨?_, hcursor.trans hcursor'⟩
  rw [hresult, hresult']
  cases r''.result with
  | error e => rfl
  | ok cs => exact congrArg Except.ok (List.append_assoc as bs cs).symm

lemma Prepends.of_error {as : List α} {r r' : Reading (List α)} {e : GrammarError}
    (h : Prepends as r r') (h' : r'.result = .error e) : r.result = .error e := by
  rw [h.1, h']
  rfl

lemma Prepends.of_nil {as : List α} {r r' : Reading (List α)} {c : Cursor} (h : Prepends as r r')
    (hresult : r'.result = .ok []) (hcursor : r'.cursor = c) :
    r.result = .ok as ∧ r.cursor = c := by
  refine ⟨?_, h.2.trans hcursor⟩
  rw [h.1, hresult]
  exact congrArg Except.ok (List.append_nil as)

lemma prepends_cons (a : α) (r : Reader (List α)) (c : Cursor) :
    Prepends [a] ((do let as ← r; pure (a :: as) : Reader (List α)) c) (r c) := by
  cases h : (r c).result with
  | error e =>
    refine ⟨?_, (bind_of_error _ h).2⟩
    rw [h]
    exact (bind_of_error _ h).1
  | ok as =>
    refine ⟨?_, (bind_of_ok _ h).2⟩
    rw [h]
    exact (bind_of_ok _ h).1

/-! ## Basic readers -/

@[simp] lemma yields_pure_iff {a b : α} {c c' : Cursor} :
    Yields (pure a : Reader α) c b c' ↔ a = b ∧ c = c' := by
  simp [Yields, pure]

@[simp] lemma yields_note_iff {e : Event} {c c' : Cursor} {a : Unit} :
    Yields (Reader.note e) c a c' ↔ c = c' := by
  simp [Yields, Reader.note]

@[simp] lemma yields_noteAll_iff {events : List Event} {c c' : Cursor} {a : Unit} :
    Yields (Reader.noteAll events) c a c' ↔ c = c' := by
  simp [Yields, Reader.noteAll]

@[simp] lemma yields_require_iff {value : Option α} {e : GrammarError} {a : α} {c c' : Cursor} :
    Yields (Reader.require value e) c a c' ↔ value = some a ∧ c = c' := by
  cases value <;> simp [Yields, Reader.require, Reader.fail, pure]

@[simp] lemma yields_lift_iff {result : Except GrammarError α} {a : α} {c c' : Cursor} :
    Yields (Reader.lift result) c a c' ↔ result = .ok a ∧ c = c' := by
  simp [Yields, Reader.lift]

@[simp] lemma yields_fail_iff {e : GrammarError} {a : α} {c c' : Cursor} :
    Yields (Reader.fail e) c a c' ↔ False := by
  simp [Yields, Reader.fail]

@[simp] lemma nextOrBlank_nil (n : ℕ) : Cursor.nextOrBlank ⟨n, []⟩ = ([], ⟨n, []⟩) := rfl

lemma yields_note (e : Event) (c : Cursor) : Yields (Reader.note e) c () c :=
  ⟨rfl, rfl⟩

lemma yields_noteAll (events : List Event) (c : Cursor) : Yields (Reader.noteAll events) c () c :=
  ⟨rfl, rfl⟩

lemma yields_nextTrimmed (n : ℕ) (line : Text) (rest : List Text) :
    Yields Reader.nextTrimmed ⟨n, line :: rest⟩ (Text.trim line) ⟨n + 1, rest⟩ :=
  ⟨rfl, rfl⟩

lemma steady_of_still {r : Reader α} (hcursor : ∀ c, (r c).cursor = c)
    (hresult : ∀ c c', (r c).result = (r c').result) : Steady r := by
  refine ⟨fun c => ?_, fun ls n m x y y' hls hrest _ => ⟨hresult _ _, ?_⟩⟩
  · rw [hcursor]
    exact .refl c
  · rw [hcursor] at hrest ⊢
    have hrest : ls = y := hrest
    rw [hrest] at hls
    rw [List.self_eq_append_left.mp hls]
    rfl

lemma steady_pure (a : α) : Steady (pure a : Reader α) :=
  steady_of_still (fun _ => rfl) fun _ _ => rfl

lemma steady_fail (e : GrammarError) : Steady (Reader.fail e : Reader α) :=
  steady_of_still (fun _ => rfl) fun _ _ => rfl

lemma steady_note (e : Event) : Steady (Reader.note e) :=
  steady_of_still (fun _ => rfl) fun _ _ => rfl

lemma steady_noteAll (events : List Event) : Steady (Reader.noteAll events) :=
  steady_of_still (fun _ => rfl) fun _ _ => rfl

lemma steady_lift (result : Except GrammarError α) : Steady (Reader.lift result) :=
  steady_of_still (fun _ => rfl) fun _ _ => rfl

lemma steady_require (value : Option α) (e : GrammarError) : Steady (Reader.require value e) := by
  cases value with
  | none => exact steady_fail e
  | some a => exact steady_pure a

/-- A reader that takes the next line, if there is one, is steady. -/
lemma steady_of_next {r : Reader α}
    (hnil : ∀ n m, (r ⟨n, []⟩).result = (r ⟨m, []⟩).result ∧ (r ⟨n, []⟩).cursor = ⟨n, []⟩)
    (hcons : ∀ n m line rest rest',
      (r ⟨n, line :: rest⟩).result = (r ⟨m, line :: rest'⟩).result ∧
        (r ⟨n, line :: rest⟩).cursor = ⟨n + 1, rest⟩) : Steady r := by
  refine ⟨fun ⟨n, ls⟩ => ?_, fun ls n m x y y' hls hrest hy => ?_⟩
  · cases ls with
    | nil =>
      rw [(hnil n n).2]
      exact .refl _
    | cons line rest =>
      rw [(hcons n n line rest rest).2]
      exact Cursor.reaches_succ n line rest
  · cases ls with
    | nil =>
      obtain ⟨rfl, rfl⟩ := List.append_eq_nil_iff.mp hls.symm
      rw [hy rfl]
      exact ⟨(hnil m n).1, congrArg Cursor.rest (hnil m m).2⟩
    | cons line rest =>
      rw [(hcons n n line rest rest).2] at hrest
      obtain rfl : rest = y := hrest
      have hx : [line] ++ rest = x ++ rest := hls
      obtain rfl := List.append_cancel_right hx
      exact ⟨(hcons m n line y' rest).1, congrArg Cursor.rest (hcons m m line y' y').2⟩

lemma steady_nextTrimmed : Steady Reader.nextTrimmed :=
  steady_of_next (fun _ _ => ⟨rfl, rfl⟩) fun _ _ _ _ _ => ⟨rfl, rfl⟩

end TestCatalog.Proofs
