import TestCatalog.Proofs.Runs

/-!
# Lines taken by the readers

A steady reader takes the lines that its parts take, one after the other. So the lines of each part
of a case can be read off from the lines of its body.
-/

namespace TestCatalog.Proofs

variable {α β : Type}

/-- A sequence takes what its parts take, in order. -/
theorem Takes.of_bind {r : Reader α} {f : α → Reader β} {x : List Text} {w : β}
    (h : Takes (r >>= f) x w) (hr : Steady r) (hf : ∀ v, Steady (f v)) :
    ∃ v x₁ x₂, x = x₁ ++ x₂ ∧ Takes r x₁ v ∧ Takes (f v) x₂ w := by
  obtain ⟨m, hm⟩ := h 0 [[]]
  obtain ⟨v, c, hv, hw⟩ := yields_bind_iff.mp hm
  obtain ⟨x₁, left, hx₁, rfl⟩ := hv.exists_lines hr.forward
  obtain ⟨x₂, hx₂ : left = x₂ ++ [[]], -⟩ := hw.reaches (hf v).forward
  subst hx₂
  rw [← List.append_assoc] at hx₁
  obtain rfl := List.append_cancel_right hx₁
  rw [List.append_assoc] at hv
  exact ⟨v, x₁, x₂, rfl, hv.takes hr (by simp), hw.takes (hf v) (by simp)⟩

/-! ## Readers that stay -/

lemma Takes.of_still {r : Reader α} {x : List Text} {v : α} (h : Takes r x v)
    (hr : ∀ c, (r c).cursor = c) : x = [] := by
  obtain ⟨m, -, hcursor⟩ := h 0 []
  rw [hr] at hcursor
  simpa using congrArg Cursor.rest hcursor

lemma Takes.of_pure {v w : α} {x : List Text} (h : Takes (pure v : Reader α) x w) :
    v = w ∧ x = [] := by
  obtain ⟨m, hm⟩ := h 0 []
  exact ⟨(yields_pure_iff.mp hm).1, h.of_still fun _ => rfl⟩

lemma Takes.of_fail {e : GrammarError} {x : List Text} {v : α} (h : Takes (Reader.fail e) x v) :
    False := by
  obtain ⟨m, hm⟩ := h 0 []
  exact yields_fail_iff.mp hm

/-- A value that is made of what was read costs no lines. -/
lemma Takes.of_map {r : Reader α} {f : α → β} {x : List Text} {w : β}
    (h : Takes (do let v ← r; pure (f v)) x w) (hr : Steady r) : ∃ v, Takes r x v ∧ f v = w := by
  obtain ⟨v, x₁, x₂, rfl, hv, hw⟩ := h.of_bind hr fun _ => steady_pure _
  obtain ⟨hvalue, rfl⟩ := hw.of_pure
  exact ⟨v, by simpa using hv, hvalue⟩

/-- What follows a report takes all the lines. -/
lemma Takes.of_noteAll {events : List Event} {r : Reader α} {x : List Text} {v : α}
    (h : Takes (do Reader.noteAll events; r) x v) (hr : Steady r) : Takes r x v := by
  obtain ⟨_, x₁, x₂, rfl, hnote, hrest⟩ := h.of_bind (steady_noteAll events) fun _ => hr
  obtain rfl := hnote.of_still fun _ => rfl
  exact hrest

/-! ## Single lines -/

lemma Takes.of_nextTrimmed {x : List Text} {t : Text} (h : Takes Reader.nextTrimmed x t) :
    ∃ line, x = [line] ∧ Text.trim line = t := by
  obtain ⟨m, hresult, hcursor⟩ := h 0 [[]]
  cases x with
  | nil => cases hcursor
  | cons line x =>
    have hrest : x ++ [[]] = [[]] := congrArg Cursor.rest hcursor
    obtain rfl : x = [] := by simpa using hrest
    exact ⟨line, rfl, Except.ok.inj hresult⟩

lemma Takes.of_expectHeader {label case : Text} {first : Bool} {x : List Text} {u : Unit}
    (h : Takes (Section.expectHeader label case first) x u) :
    ∃ line, x = [line] ∧ Section.isHeader label (Text.trim line) = true := by
  have hsteady (line : Text) : Steady (if Section.isHeader label line then pure () else
      Reader.fail (.missingSectionHeader label case first) : Reader Unit) := by
    split
    · exact steady_pure _
    · exact steady_fail _
  obtain ⟨t, x₁, x₂, rfl, hline, hcheck⟩ := h.of_bind steady_nextTrimmed hsteady
  obtain ⟨line, rfl, rfl⟩ := hline.of_nextTrimmed
  split at hcheck
  · obtain ⟨-, rfl⟩ := hcheck.of_pure
    exact ⟨line, rfl, ‹_›⟩
  · exact hcheck.of_fail.elim

lemma Takes.of_readProjects {config : SyncConfig} {d : Dialect} {case line : Text}
    {listed : List Text × Option AssemblyWarning}
    (h : Takes (Projects.read config d case) [line] listed) :
    Projects.mark <+: Text.trim line := by
  obtain ⟨m, hm⟩ := h 0 []
  obtain ⟨scope, hscope, -⟩ := yields_readProjects_iff.mp hm
  exact ⟨scope, (stripStart?_eq_some hscope).symm⟩

end TestCatalog.Proofs
