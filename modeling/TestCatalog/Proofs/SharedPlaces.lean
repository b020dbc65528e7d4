import Mathlib.Algebra.Ring.Nat
import Mathlib.Data.List.Infix
import TestCatalog.Proofs.SharedBatches

/-!
# Places in a shared batch

A batch that is shared out counts its files by chunk, by slice and by place in the slice. The places
number all files in their order. For less than `2 ^ 63` files, and as many workers as a word of 64
bits can count, everything that is computed on the way fits into such a word.
-/

namespace TestCatalog.Proofs

open Batch

/-! ## Pieces -/

section Pieces

variable {α : Type} {n : ℕ} {l : List α}

lemma length_chunks_le {m : ℕ} (hn : n ≠ 0) (h : l.length ≤ n * m) : (chunks n l).length ≤ m := by
  induction m generalizing l with
  | zero =>
    obtain rfl : l = [] := List.eq_nil_of_length_eq_zero (Nat.le_zero.mp h)
    rw [chunks_nil, List.length_nil]
  | succ m ih =>
    by_cases hl : l = []
    · rw [hl, chunks_nil]
      exact Nat.zero_le _
    · rw [Nat.mul_succ] at h
      rw [chunks_eq hn hl, List.length_cons]
      exact Nat.succ_le_succ (ih (by rw [List.length_drop]; omega))

lemma length_le_of_mem_chunks (hn : n ≠ 0) {piece : List α} (h : piece ∈ chunks n l) :
    piece.length ≤ n := by
  induction l using chunks_induction hn with
  | nil =>
    rw [chunks_nil] at h
    cases h
  | piece l hl ih =>
    rw [chunks_eq hn hl, List.mem_cons] at h
    rcases h with rfl | h
    · exact List.length_take_le n l
    · exact ih h

end Pieces

/-! ## Places -/

/-- Where a file is worked on: in which chunk, in which slice of it, and where in the slice. -/
structure Place where
  chunk : ℕ
  slot : ℕ
  index : ℕ

namespace Place

variable (size threads : ℕ) (place : Place)

/-- The number of the first file of the chunk. -/
def base : ℕ :=
  place.chunk * size * threads

/-- The number of the first file of the slice. -/
def offset : ℕ :=
  place.base size threads + place.slot * size

def number : ℕ :=
  place.offset size threads + place.index

end Place

/-- The files of a batch in the order in which slices and chunks hold them, each with its place. -/
def placed (size threads : ℕ) (paths : List Path) : List (Place × Path) :=
  ((chunks (size * threads) paths).mapIdx fun chunk files =>
    ((chunks size files).mapIdx fun slot slice =>
      slice.mapIdx fun index path => (⟨chunk, slot, index⟩, path)).flatten).flatten

variable {size threads : ℕ} {paths : List Path}

/-- The places number the files as the list does. -/
theorem map_placed {β : Type} (hchunk : size * threads ≠ 0) (f : ℕ → Path → β) :
    (placed size threads paths).map (fun (place, path) => f (place.number size threads) path) =
      paths.mapIdx f := by
  have hsize : size ≠ 0 := fun h => hchunk (by rw [h, Nat.zero_mul])
  have hwhole : ((chunks (size * threads) paths).mapIdx fun chunk files =>
      files.mapIdx fun i path => f (chunk * (size * threads) + i) path).flatten =
        paths.mapIdx f := by
    simpa only [Nat.zero_add] using flatten_mapIdx_chunks hchunk f 0 paths
  simp only [placed, List.map_flatten, map_mapIdx, Place.number, Place.offset, Place.base,
    flatten_mapIdx_chunks hsize, Nat.mul_assoc]
  exact hwhole

lemma numbers_placed (hchunk : size * threads ≠ 0) :
    (placed size threads paths).map (fun p => p.1.number size threads) =
      List.range paths.length := by
  rw [map_placed hchunk fun i _ => i]
  exact List.ext_getElem (by simp) (by simp)

lemma files_placed (hchunk : size * threads ≠ 0) :
    (placed size threads paths).map Prod.snd = paths := by
  refine (map_placed hchunk fun _ path => path).trans ?_
  exact List.ext_getElem (by simp) (by simp)

lemma number_lt {place : Place × Path} (hchunk : size * threads ≠ 0)
    (h : place ∈ placed size threads paths) : place.1.number size threads < paths.length := by
  have hnumber := List.mem_map_of_mem (f := fun p => p.1.number size threads) h
  rwa [numbers_placed hchunk, List.mem_range] at hnumber

/-! ## Slices -/

/-- An even share, rounded up: the quotient, and one more where a rest is left. -/
lemma share_eq (files : ℕ) {threads : ℕ} (hthreads : threads ≠ 0) :
    (files + threads - 1) / threads =
      files / threads + if files % threads = 0 then 0 else 1 := by
  have hpos := Nat.pos_of_ne_zero hthreads
  have hsplit := Nat.div_add_mod files threads
  have hlt := Nat.mod_lt files hpos
  split_ifs with hrest
  · have hfiles : files + threads - 1 = threads * (files / threads) + (threads - 1) := by omega
    rw [hfiles, Nat.mul_add_div hpos, Nat.div_eq_of_lt (Nat.sub_one_lt hthreads)]
  · have hfiles : files + threads - 1 =
        threads * (files / threads + 1) + (files % threads - 1) := by
      rw [Nat.mul_succ]
      omega
    have hrest' : (files % threads - 1) / threads = 0 := Nat.div_eq_of_lt (by omega)
    rw [hfiles, Nat.mul_add_div hpos, hrest', Nat.add_zero]

lemma sliceSize_eq (files : ℕ) {threads : ℕ} (hthreads : threads ≠ 0) :
    sliceSize files threads =
      min 50 (max 1 (files / threads + if files % threads = 0 then 0 else 1)) := by
  have hone : max 1 threads = threads := Nat.max_eq_right (Nat.one_le_iff_ne_zero.mpr hthreads)
  rw [sliceSize, hone, share_eq files hthreads]

/-- A chunk has no more places than there are workers, or no more than twice the files. -/
lemma sliceSize_mul_le (files : ℕ) {threads : ℕ} (hthreads : threads ≠ 0) :
    sliceSize files threads * threads ≤ max threads (2 * files) := by
  have hmul := Nat.div_mul_le_self files threads
  rw [sliceSize_eq files hthreads]
  generalize files / threads = quotient at hmul
  cases quotient with
  | zero =>
    have hone : min 50 (max 1 (0 + if files % threads = 0 then 0 else 1)) = 1 := by
      split_ifs <;> rfl
    rw [hone, Nat.one_mul]
    exact Nat.le_max_left _ _
  | succ quotient =>
    -- every worker has a file already, so that rounding up at most doubles its share
    have hslice : min 50 (max 1 (quotient + 1 + if files % threads = 0 then 0 else 1)) ≤
        2 * (quotient + 1) := by
      split_ifs <;> omega
    have htwice := Nat.mul_le_mul_right threads hslice
    rw [Nat.mul_assoc] at htwice
    omega

/-- All that is computed of a place stays below a bound. -/
structure Place.Below (bound size threads : ℕ) (place : Place) : Prop where
  rounds : place.chunk * size < bound
  base : place.base size threads < bound
  slices : place.slot * size < bound
  offset : place.offset size threads < bound
  number : place.number size threads < bound

lemma Place.below_of_number {bound : ℕ} {place : Place} (hthreads : threads ≠ 0)
    (h : place.number size threads < bound) : place.Below bound size threads := by
  have hbase : place.chunk * size ≤ place.chunk * size * threads :=
    Nat.le_mul_of_pos_right _ (Nat.pos_of_ne_zero hthreads)
  constructor <;> simp only [Place.number, Place.offset, Place.base] at h ⊢ <;> omega

/-! ## Runs -/

/-- The work on the files of a batch, each under the number of its place. -/
def workAt (job : Job) (size threads : ℕ) (paths : List Path) : List Outcome :=
  (placed size threads paths).map fun (place, path) =>
    (path, (job path (place.number size threads)).value)

lemma map_workFrom (job : Job) (hchunk : size * threads ≠ 0) (paths : List Path) :
    (workFrom job 0 paths).map (fun work => (work.1, work.2.value)) =
      workAt job size threads paths := by
  rw [workFrom, map_mapIdx]
  simp only [Nat.zero_add]
  exact (map_placed hchunk fun i path => (path, (job path i).value)).symm

/-- A shared batch does the work at the places in their order; where it fails fast, it may end
before all of it is done. -/
lemma value_runParallel (job : Job) (failFast : Bool) (threads : ℕ) (paths : List Path) :
    let size := sliceSize paths.length (max 1 threads)
    let run := runParallel job failFast threads paths
    run.value <+: workAt job size (max 1 threads) paths ∧
      (failFast = false → run.value = workAt job size (max 1 threads) paths) := by
  intro size run
  have hchunk : size * max 1 threads ≠ 0 :=
    Nat.mul_ne_zero (sliceSize_ne_zero _ _) (by omega)
  let rounds := chunks (size * max 1 threads) (workFrom job 0 paths)
  have hall : rounds.flatten = workFrom job 0 paths := flatten_chunks hchunk _
  have hdone : (upTo (endsWithin failFast) rounds).flatten <+: rounds.flatten :=
    (List.take_prefix _ rounds).flatten
  have hvalue : run.value = (upTo (endsWithin failFast) rounds).flatten.map
      fun work => (work.1, work.2.value) := (records_runParallel job failFast threads paths).value
  rw [hvalue, ← map_workFrom job hchunk paths, ← hall]
  refine ⟨hdone.map _, ?_⟩
  rintro rfl
  rw [upTo_of_forall fun chunk _ => endsWithin_false chunk]

/-- A batch of less than `2 ^ 63` files, for any number of workers below `2 ^ 64`, is shared out by
numbers below `2 ^ 64`. A chunk has no more slices than there are workers, the places number the
files from zero on, each once and in their order, and the work is done under these numbers. -/
theorem places_within_words {threads : ℕ} {paths : List Path} (hpaths : paths.length < 2 ^ 63)
    (hthreads : threads < 2 ^ 64) :
    let t := max 1 threads
    let s := sliceSize paths.length t
    s = min 50 (max 1 (paths.length / t + if paths.length % t = 0 then 0 else 1)) ∧
      (1 ≤ s ∧ s ≤ 50) ∧ (s * t ≠ 0 ∧ s * t < 2 ^ 64) ∧
      (∀ chunk ∈ chunks (s * t) paths, (chunks s chunk).length ≤ t) ∧
      (∀ place ∈ placed s t paths, place.1.Below (2 ^ 64) s t) ∧
      (placed s t paths).map (fun place => place.1.number s t) = List.range paths.length ∧
      (placed s t paths).map Prod.snd = paths ∧
      ∀ (job : Job) (failFast : Bool),
        let run := runParallel job failFast threads paths
        run.value <+: workAt job s t paths ∧
          (failFast = false → run.value = workAt job s t paths) := by
  intro t s
  have ht : t ≠ 0 := by omega
  have hsize : s ≠ 0 := sliceSize_ne_zero _ _
  have hchunk : s * t ≠ 0 := Nat.mul_ne_zero hsize ht
  have hshare := sliceSize_eq paths.length ht
  have hproduct : s * t ≤ max t (2 * paths.length) := sliceSize_mul_le paths.length ht
  refine ⟨hshare, ⟨by omega, by omega⟩, ⟨hchunk, by omega⟩, fun chunk hmem => ?_,
    fun place hplace => ?_, numbers_placed hchunk, files_placed hchunk,
    fun job failFast => value_runParallel job failFast threads paths⟩
  · exact length_chunks_le hsize (length_le_of_mem_chunks hchunk hmem)
  · exact Place.below_of_number ht ((number_lt hchunk hplace).trans (by omega))

/-- With as many workers as a word can count, every file is a slice of its own, and the chunk is as
long as a word can tell. -/
theorem places_within_words_crowded :
    let files : List Path := [⟨"suite/cart.py"⟩, ⟨"suite/login.py"⟩, ⟨"suite/order.py"⟩]
    let t := 2 ^ 64 - 1
    let s := sliceSize files.length t
    (files.length < 2 ^ 63 ∧ t < 2 ^ 64) ∧ (s = 1 ∧ s * t = 2 ^ 64 - 1) ∧
      (∀ chunk ∈ chunks (s * t) files, (chunks s chunk).length ≤ t) ∧
      (∀ place ∈ placed s t files, place.1.Below (2 ^ 64) s t) ∧
      (placed s t files).map (fun place => place.1.number s t) = [0, 1, 2] ∧
      (placed s t files).map Prod.snd = files := by
  intro files t s
  have hpaths : files.length < 2 ^ 63 := by decide
  have hthreads : t < 2 ^ 64 := by decide
  have ht : max 1 t = t := by decide
  obtain ⟨-, -, -, hslices, hbelow, hnumbers, hfiles, -⟩ := places_within_words hpaths hthreads
  rw [ht] at hslices hbelow hnumbers hfiles
  exact ⟨⟨hpaths, hthreads⟩, by decide, hslices, hbelow, hnumbers, hfiles⟩

end TestCatalog.Proofs
