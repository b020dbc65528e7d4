import TestCatalog.Diagnostics.Event
import TestCatalog.Proofs.ByteSizes

/-!
# Cut messages

A message of too many bytes is cut at the last offset within the limit where a character ends. The
search for it goes downward from the limit and is over after at most three steps, since a character
has at most four bytes.
-/

namespace TestCatalog.Proofs

variable {t kept : Text} {limit : ℕ}

/-! ## The longest start -/

/-- The longest start of a text that has at most `limit` bytes. -/
structure LongestWithin (limit : ℕ) (t kept : Text) : Prop where
  start : kept <+: t
  size_le : Text.utf8Size kept ≤ limit
  longest : ∀ other, other <+: t → Text.utf8Size other ≤ limit → other <+: kept

lemma LongestWithin.unique {kept' : Text} (h : LongestWithin limit t kept)
    (h' : LongestWithin limit t kept') : kept = kept' :=
  (h'.longest kept h.start h.size_le).eq_of_length_le
    (h.longest kept' h'.start h'.size_le).length_le

/-- What is the longest within a limit is so within its own size. -/
lemma LongestWithin.of_size (h : LongestWithin limit t kept) :
    LongestWithin (Text.utf8Size kept) t kept :=
  ⟨h.start, Nat.le_refl _,
    fun other hother hle => h.longest other hother (Nat.le_trans hle h.size_le)⟩

theorem longestWithin_takeBytes (limit : ℕ) (t : Text) :
    LongestWithin limit t (Text.takeBytes limit t) := by
  induction t generalizing limit with
  | nil => exact ⟨List.prefix_rfl, limit.zero_le, fun other hother _ => hother⟩
  | cons c t ih =>
    rw [Text.takeBytes]
    split_ifs with hfits
    · obtain ⟨hstart, hsize, hlongest⟩ := ih (limit - c.utf8Size)
      refine ⟨List.cons_prefix_cons.mpr ⟨rfl, hstart⟩, ?_, fun other hother hle => ?_⟩
      · rw [utf8Size_cons]
        omega
      · rcases List.prefix_cons_iff.mp hother with rfl | ⟨rest, rfl, hrest⟩
        · exact List.nil_prefix
        · rw [utf8Size_cons] at hle
          exact List.cons_prefix_cons.mpr ⟨rfl, hlongest rest hrest (by omega)⟩
    · refine ⟨List.nil_prefix, limit.zero_le, fun other hother hle => ?_⟩
      rcases List.prefix_cons_iff.mp hother with rfl | ⟨rest, rfl, -⟩
      · exact List.prefix_rfl
      · rw [utf8Size_cons] at hle
        omega

/-- The next character would exceed the limit, and it has at most four bytes. -/
lemma LongestWithin.limit_lt (h : LongestWithin limit t kept) (hlong : limit < Text.utf8Size t) :
    limit < Text.utf8Size kept + 4 := by
  obtain ⟨rest, rfl⟩ := h.start
  cases rest with
  | nil =>
    rw [List.append_nil] at hlong
    exact absurd h.size_le (Nat.not_le.mpr hlong)
  | cons c rest =>
    have hnext : kept ++ [c] <+: kept ++ c :: rest := by simp
    have hsize : Text.utf8Size (kept ++ [c]) = Text.utf8Size kept + c.utf8Size := by
      rw [utf8Size_append, utf8Size_cons]
      rfl
    have hover : ¬ Text.utf8Size (kept ++ [c]) ≤ limit := by
      intro hle
      have hlength := (h.longest _ hnext hle).length_le
      rw [List.length_append, List.length_singleton] at hlength
      omega
    have hfour := c.utf8Size_le_four
    omega

/-! ## Boundaries -/

lemma isBoundary_iff {n : ℕ} :
    Text.isBoundary t n = true ↔ ∃ start, start <+: t ∧ Text.utf8Size start = n := by
  induction t generalizing n with
  | nil =>
    cases n with
    | zero => exact ⟨fun _ => ⟨[], List.prefix_rfl, rfl⟩, fun _ => rfl⟩
    | succ n =>
      refine ⟨fun h => absurd h Bool.false_ne_true, ?_⟩
      rintro ⟨start, hstart, hsize⟩
      rw [List.prefix_nil.mp hstart] at hsize
      cases hsize
  | cons c t ih =>
    cases n with
    | zero => exact ⟨fun _ => ⟨[], List.nil_prefix, rfl⟩, fun _ => rfl⟩
    | succ n =>
      rw [Text.isBoundary, Bool.and_eq_true, decide_eq_true_iff, ih]
      constructor
      · rintro ⟨hle, start, hstart, hsize⟩
        refine ⟨c :: start, List.cons_prefix_cons.mpr ⟨rfl, hstart⟩, ?_⟩
        rw [utf8Size_cons]
        omega
      · rintro ⟨start, hstart, hsize⟩
        rcases List.prefix_cons_iff.mp hstart with rfl | ⟨rest, rfl, hrest⟩
        · cases hsize
        · rw [utf8Size_cons] at hsize
          exact ⟨by omega, rest, hrest, by omega⟩

/-- The boundaries of a text are the offsets where the bytes of its string can be cut. -/
theorem isBoundary_iff_isValid {n : ℕ} :
    Text.isBoundary t n = true ↔ String.Pos.Raw.IsValid (String.ofList t) ⟨n⟩ := by
  rw [isBoundary_iff, String.Pos.Raw.isValid_iff_exists_take_toList, String.toList_ofList]
  constructor
  · rintro ⟨start, hstart, rfl⟩
    refine ⟨start.length, ?_⟩
    rw [← List.prefix_iff_eq_take.mp hstart, utf8ByteSize_ofList]
  · rintro ⟨i, hi⟩
    exact ⟨t.take i, List.take_prefix i t, (utf8ByteSize_ofList _).symm.trans hi.symm⟩

/-! ## The search -/

/-- A search for a boundary that starts at the limit and goes down stops at the first one. -/
structure StopsAfter (t : Text) (limit steps : ℕ) : Prop where
  within : steps ≤ limit
  passed : ∀ k < steps, Text.isBoundary t (limit - k) = false
  boundary : Text.isBoundary t (limit - steps) = true
  result : Text.boundaryAtMost t limit = limit - steps

lemma isBoundary_zero (t : Text) : Text.isBoundary t 0 = true := by
  cases t <;> rfl

lemma exists_stopsAfter (t : Text) (limit : ℕ) : ∃ steps, StopsAfter t limit steps := by
  induction limit with
  | zero => exact ⟨0, Nat.le_refl 0, by simp, isBoundary_zero t, rfl⟩
  | succ limit ih =>
    cases hboundary : Text.isBoundary t (limit + 1) with
    | true =>
      refine ⟨0, Nat.zero_le _, by simp, hboundary, ?_⟩
      rw [Text.boundaryAtMost, if_pos hboundary, Nat.sub_zero]
    | false =>
      obtain ⟨steps, hwithin, hpassed, hstop, hresult⟩ := ih
      refine ⟨steps + 1, Nat.succ_le_succ hwithin, fun k hk => ?_, ?_, ?_⟩
      · cases k with
        | zero => exact hboundary
        | succ k =>
          rw [Nat.add_sub_add_right]
          exact hpassed k (Nat.lt_of_succ_lt_succ hk)
      · rwa [Nat.add_sub_add_right]
      · rw [Text.boundaryAtMost, hboundary, if_neg Bool.false_ne_true, hresult,
          Nat.add_sub_add_right]

/-- The search stops at the end of the longest start. -/
lemma StopsAfter.size_eq {steps : ℕ} (h : StopsAfter t limit steps)
    (hkept : LongestWithin limit t kept) : Text.utf8Size kept = limit - steps := by
  obtain ⟨start, hstart, hsize⟩ := isBoundary_iff.mp h.boundary
  have hle : limit - steps ≤ Text.utf8Size kept := by
    rw [← hsize]
    exact utf8Size_mono (hkept.longest start hstart (by omega))
  have hend : Text.isBoundary t (Text.utf8Size kept) = true :=
    isBoundary_iff.mpr ⟨kept, hkept.start, rfl⟩
  have hlimit := hkept.size_le
  by_contra hne
  -- otherwise the search has passed the end of the longest start
  have hpassed := h.passed (limit - Text.utf8Size kept) (by omega)
  rw [Nat.sub_sub_self hlimit, hend] at hpassed
  cases hpassed

lemma takeBytes_boundaryAtMost (t : Text) (limit : ℕ) :
    Text.takeBytes (Text.boundaryAtMost t limit) t = Text.takeBytes limit t := by
  obtain ⟨steps, hsteps⟩ := exists_stopsAfter t limit
  have hkept := longestWithin_takeBytes limit t
  rw [hsteps.result, ← hsteps.size_eq hkept]
  exact (longestWithin_takeBytes _ t).unique hkept.of_size

/-! ## Messages -/

lemma truncate_of_le (h : Text.utf8Size t ≤ limit) : Text.truncate limit t = t :=
  if_neg (Nat.not_lt.mpr h)

lemma truncate_of_lt (h : limit < Text.utf8Size t) :
    Text.truncate limit t = Text.takeBytes limit t ++ "..." := by
  rw [Text.truncate, if_pos h, takeBytes_boundaryAtMost]

/-- A cut falls where a character ends. -/
example : Text.truncate 5 "ab€€" = "ab€..." := by decide

lemma utf8Size_dots (t : Text) : Text.utf8Size (t ++ ("..." : Text)) = Text.utf8Size t + 3 :=
  utf8Size_append t "..."

lemma utf8Size_truncate_le (limit : ℕ) (t : Text) :
    Text.utf8Size (Text.truncate limit t) ≤ limit + 3 := by
  by_cases hlong : limit < Text.utf8Size t
  · have hkept := (longestWithin_takeBytes limit t).size_le
    rw [truncate_of_lt hlong, utf8Size_dots]
    omega
  · rw [truncate_of_le (Nat.not_lt.mp hlong)]
    omega

/-- An event keeps its message whole if that has no more bytes than the limit. Otherwise it has the
longest start within the limit and three dots: the search goes down from the limit, past at most
three offsets inside one character, and ends long before it comes to zero. -/
theorem make_keeps_message (level : Level) (code : Code) (message : Text) :
    let limit := Limits.messageBytes
    let bytes (t : Text) := (String.ofList t).utf8ByteSize
    let boundary (n : ℕ) := String.Pos.Raw.IsValid (String.ofList message) ⟨n⟩
    let stored := (Event.make level code message).message
    bytes stored ≤ limit + 3 ∧
      if bytes message ≤ limit then stored = message
      else limit ≤ bytes stored ∧ ∃ kept, stored = kept ++ "..." ∧
        (kept <+: message ∧ bytes kept ≤ limit ∧
          ∀ other, other <+: message → bytes other ≤ limit → other <+: kept) ∧
        ∃ steps ≤ 3, steps < limit ∧ Text.boundaryAtMost message limit = limit - steps ∧
          bytes kept = limit - steps ∧ boundary (limit - steps) ∧
          ∀ k < steps, ¬ boundary (limit - k) := by
  intro limit bytes boundary stored
  have hbytes : bytes = Text.utf8Size := funext utf8ByteSize_ofList
  have hboundary (n : ℕ) : boundary n ↔ Text.isBoundary message n = true :=
    isBoundary_iff_isValid.symm
  rw [hbytes]
  refine ⟨utf8Size_truncate_le limit message, ?_⟩
  split_ifs with hshort
  · exact truncate_of_le hshort
  · have hlong : limit < Text.utf8Size message := Nat.not_le.mp hshort
    have hstored : stored = Text.takeBytes limit message ++ "..." := truncate_of_lt hlong
    have hkept := longestWithin_takeBytes limit message
    have hnear := hkept.limit_lt hlong
    obtain ⟨steps, hsteps⟩ := exists_stopsAfter message limit
    have hsize := hsteps.size_eq hkept
    have hlimit : 4 ≤ limit := by decide
    refine ⟨?_, _, hstored, ⟨hkept.start, hkept.size_le, hkept.longest⟩, steps, ?_, ?_,
      hsteps.result, hsize, (hboundary _).mpr hsteps.boundary, fun k hk h => ?_⟩
    · rw [hstored, utf8Size_dots]
      omega
    · have hwithin := hsteps.within
      omega
    · have hwithin := hsteps.within
      omega
    · have hpassed := hsteps.passed k hk
      rw [(hboundary _).mp h] at hpassed
      cases hpassed

end TestCatalog.Proofs
