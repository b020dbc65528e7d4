import TestCatalog.Proofs.SharedBatches

/-!
# Batches that fail fast

A batch that fails fast ends with its first failure: alone with the very file, shared out with the
chunk that holds the file. `runs_up_to_failure` says which files each of them works on, so that what
the one tells is the beginning of what the other tells.
-/

namespace TestCatalog.Proofs

open Batch

section Chunks

variable {α : Type} {stops : α → Bool}

/-- An element that is found behind the first `n` is found `n` later than among the others. -/
lemma findIdx_of_take {n : ℕ} {l : List α} (hn : n ≤ l.length)
    (h : (l.take n).any stops = false) : l.findIdx stops = n + (l.drop n).findIdx stops := by
  have hnone : ∀ a ∈ l.take n, stops a = false := by simpa using h
  conv_lhs => rw [← List.take_append_drop n l, List.findIdx_append]
  rw [List.findIdx_eq_length_of_false hnone, List.length_take_of_le hn, if_neg (Nat.lt_irrefl n),
    Nat.add_comm]

/-- The chunks up to the first one with an element that stops are a multiple of the chunk's length,
up to behind that element. -/
theorem flatten_upTo_chunks {stopsWithin : List α → Bool}
    (hwithin : ∀ chunk, stopsWithin chunk = chunk.any stops) {n : ℕ} (hn : n ≠ 0) (l : List α) :
    (upTo stopsWithin (chunks n l)).flatten = l.take (n * (l.findIdx stops / n + 1)) := by
  have hpos := Nat.pos_of_ne_zero hn
  induction l using chunks_induction hn with
  | nil =>
    rw [chunks_nil, List.take_nil]
    rfl
  | piece l hnil ih =>
    rw [chunks_eq hn hnil]
    cases hstops : stopsWithin (l.take n) with
    | true =>
      have hany := (hwithin _).symm.trans hstops
      have hlt : l.findIdx stops < n := by
        obtain ⟨a, ha, hstops⟩ := List.any_eq_true.mp hany
        have hfound : (l.take n).findIdx stops < (l.take n).length :=
          List.findIdx_lt_length_of_exists ⟨a, ha, hstops⟩
        have hle : l.findIdx stops ≤ (l.take n).findIdx stops := by
          conv_lhs => rw [← List.take_append_drop n l, List.findIdx_append, if_pos hfound]
        exact hle.trans_lt (hfound.trans_le (List.length_take_le n l))
      rw [upTo_cons_of_pos hstops, List.flatten_singleton, Nat.div_eq_of_lt hlt, Nat.zero_add,
        Nat.mul_one]
    | false =>
      have hany := (hwithin _).symm.trans hstops
      rw [upTo_cons_of_neg hstops, List.flatten_cons, ih]
      by_cases hle : n ≤ l.length
      · have hdiv : l.findIdx stops / n = (l.drop n).findIdx stops / n + 1 := by
          rw [findIdx_of_take hle hany, Nat.add_div_left _ hpos]
        rw [hdiv, Nat.mul_add_one n (_ + 1), Nat.add_comm _ n, List.take_add]
      · -- the only chunk is shorter than the others, and nothing stops in it
        have hshort : l.length ≤ n := Nat.le_of_not_le hle
        have hmul : n ≤ n * (l.findIdx stops / n + 1) := Nat.le_mul_of_pos_right n (Nat.succ_pos _)
        rw [List.drop_eq_nil_of_le hshort, List.take_nil, List.append_nil,
          List.take_of_length_le hshort, List.take_of_length_le (hshort.trans hmul)]

end Chunks

/-! ## Results -/

/-- A batch alone tells no failure but at its end. -/
lemma length_filterMap_failed?_le (work : List (Path × Logged (Except ExtractionError Extraction))) :
    (((upTo (endsBatch true) work).map fun (path, done) => (path, done.value)).filterMap
      failed?).length ≤ 1 := by
  induction work with
  | nil => exact Nat.zero_le 1
  | cons piece work ih =>
    cases hends : endsBatch true piece with
    | true =>
      rw [upTo_cons_of_pos hends]
      exact List.length_filterMap_le _ _
    | false =>
      have hfailed : failed? (piece.1, piece.2.value) = none := by
        have hrecoverable := (Bool.and_true _).symm.trans hends
        rcases hvalue : piece.2.value with e | x
        · rw [hvalue] at hrecoverable
          have he : e.isRecoverable = true := by simpa [isFailure] using hrecoverable
          exact if_pos he
        · rfl
      rw [upTo_cons_of_neg hends, List.map_cons, List.filterMap_cons, hfailed]
      exact ih

/-- What is told of the first outcomes is the beginning of what is told of all of them. -/
lemma Tells.begins {results results' : BatchResults} {outcomes outcomes' : List Outcome}
    (h : Tells results outcomes) (h' : Tells results' outcomes') (hbegins : outcomes <+: outcomes') :
    results.successful <+: results'.successful ∧ results.skipped <+: results'.skipped ∧
      results.failed <+: results'.failed := by
  rw [h.successful, h'.successful, h.skipped, h'.skipped, h.failed, h'.failed]
  exact ⟨hbegins.filterMap _, hbegins.filterMap _, hbegins.filterMap _⟩

/-- The batch alone ends with the first file that fails, the batch that is shared out with the chunk
that holds it. -/
theorem runs_up_to_failure (job : Job) (threads : ℕ) (paths : List Path) :
    let work := paths.mapIdx fun id path => (path, job path id)
    let failure := work.findIdx fun (_, done) => isFailure done.value
    let share := sliceSize paths.length threads * max 1 threads
    let alone := runSequential job true 0 paths
    let shared := runParallel job true threads paths
    let results (run : Logged (List Outcome)) := BatchResults.ofOutcomes run.value
    Records (work.take (failure + 1)) alone ∧
    0 < share ∧ Records (work.take (share * (failure / share + 1))) shared ∧
    -- one failure at most is recorded alone, and what is recorded alone is the beginning of the rest
    (results alone).failed.length ≤ 1 ∧
    (results alone).successful <+: (results shared).successful ∧
    (results alone).skipped <+: (results shared).skipped ∧
    (results alone).failed <+: (results shared).failed ∧
    -- where nothing fails beyond recovery, nothing stops either of them
    ((∃ piece ∈ work, isFailure piece.2.value = true) ∨ failure = paths.length ∧
      Records work alone ∧ Records work shared) ∧
    -- and every outcome is recorded in one of the lists
    (results alone).processed = (results alone).successful.length +
      (results alone).failed.length + (results alone).skipped.length ∧
    (results shared).processed = (results shared).successful.length +
      (results shared).failed.length + (results shared).skipped.length := by
  intro work failure share alone shared results
  have hwork : workFrom job 0 paths = work := by simp only [workFrom, Nat.zero_add, work]
  have hends : endsBatch true = fun piece => isFailure piece.2.value :=
    funext fun piece => Bool.and_true _
  have hshare : sliceSize paths.length (max 1 threads) * max 1 threads = share := by
    simp only [share, sliceSize, ← Nat.max_assoc, Nat.max_self]
  have hpos : 0 < share := by
    rw [← hshare]
    exact Nat.mul_pos (Nat.pos_of_ne_zero (sliceSize_ne_zero _ _)) (by omega)
  have halone : Records (work.take (failure + 1)) alone := by
    have hrun := records_runSequential job true 0 paths
    rwa [hwork, hends] at hrun
  have hshared : Records (work.take (share * (failure / share + 1))) shared := by
    have hwithin (chunk : List (Path × Logged (Except ExtractionError Extraction))) :
        endsWithin true chunk = chunk.any (endsBatch true) := rfl
    have hrun := records_runParallel job true threads paths
    rwa [hwork, hshare, flatten_upTo_chunks hwithin hpos.ne', hends] at hrun
  have htells (run : Logged (List Outcome)) : Tells (results run) run.value :=
    tells_ofOutcomes run.value
  -- the chunk that holds the failure ends behind it
  have hle : failure + 1 ≤ share * (failure / share + 1) := Nat.lt_mul_div_succ failure hpos
  have hbegins : alone.value <+: shared.value := by
    rw [halone.value, hshared.value]
    exact (List.take_prefix_take_left hle).map _
  obtain ⟨hsuccessful, hskipped, hfailed⟩ := (htells alone).begins (htells shared) hbegins
  refine ⟨halone, hpos, hshared, ?_, hsuccessful, hskipped, hfailed, ?_,
    (htells alone).processed_eq, (htells shared).processed_eq⟩
  · have hone := length_filterMap_failed?_le work
    rw [(htells alone).failed, halone.value]
    rwa [hends] at hone
  · by_cases hfailure : ∃ piece ∈ work, isFailure piece.2.value = true
    · exact .inl hfailure
    · have hnone : failure = work.length :=
        List.findIdx_eq_length_of_false fun piece hpiece =>
          Bool.eq_false_iff.mpr fun h => hfailure ⟨piece, hpiece, h⟩
      rw [List.take_of_length_le (by omega)] at halone hshared
      exact .inr ⟨hnone.trans List.length_mapIdx, halone, hshared⟩

end TestCatalog.Proofs
