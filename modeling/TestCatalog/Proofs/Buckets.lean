import Mathlib.Data.List.Nodup
import Mathlib.Data.List.Perm.Basic
import TestCatalog.Reconcile.Basic

/-!
# Reconciliation buckets

The identifiers of two sides are parted into those that one side alone has, near ones and others
told apart, and those that both sides have. `reconcile_partition` says that the buckets hold every
identifier once, and each bucket in the order in which its own side lists the identifiers first.
-/

namespace TestCatalog.Proofs

open Reconcile (distinct distinctFrom partitionNear Keys)

/-- The bucket lists its identifiers in the order of their first occurrence in `ids`. -/
def InOrderOf (ids bucket : List Text) : Prop :=
  bucket.Pairwise fun a b => ids.idxOf a < ids.idxOf b

/-- The buckets of a reconciliation, one after the other. -/
def bucketed (r : Reconciliation) : List Text :=
  r.onlyExecuted ++ r.nearExecuted ++ (r.onlyCatalogued ++ r.nearCatalogued) ++ r.common.getD []

/-- What one side alone has. -/
def alone (ids others : List Text) : List Text :=
  (distinct ids).filter fun id => !(distinct others).contains id

/-- What a side has in common with the other one. -/
def shared (ids others : List Text) : List Text :=
  (distinct ids).filter fun id => (distinct others).contains id

variable {ids others bucket : List Text} {id : Text}

lemma InOrderOf.nodup (h : InOrderOf ids bucket) : bucket.Nodup :=
  h.imp fun hlt heq => (Nat.ne_of_lt hlt) (congrArg ids.idxOf heq)

lemma InOrderOf.filter (h : InOrderOf ids bucket) (p : Text → Bool) :
    InOrderOf ids (bucket.filter p) :=
  List.Pairwise.filter p h

/-! ## Distinct identifiers -/

lemma mem_distinctFrom {seen : List Text} : id ∈ distinctFrom seen ids ↔ id ∈ ids ∧ id ∉ seen := by
  induction ids generalizing seen with
  | nil => simp [distinctFrom]
  | cons first ids ih =>
    rw [distinctFrom]
    split_ifs with hseen
    · rw [ih]
      by_cases heq : id = first
      · simp [heq, hseen]
      · simp [heq]
    · rw [List.mem_cons, ih]
      by_cases heq : id = first
      · simp [heq, hseen]
      · simp [heq]

lemma mem_distinct : id ∈ distinct ids ↔ id ∈ ids := by
  simp [distinct, mem_distinctFrom]

lemma inOrderOf_cons {first : Text} (h : InOrderOf ids bucket) (hfirst : first ∉ bucket) :
    InOrderOf (first :: ids) bucket := by
  refine List.Pairwise.imp_of_mem (fun {a b} ha hb hlt => ?_) h
  have ha : first ≠ a := fun heq => hfirst (heq ▸ ha)
  have hb : first ≠ b := fun heq => hfirst (heq ▸ hb)
  rw [List.idxOf_cons_ne ids ha, List.idxOf_cons_ne ids hb]
  exact Nat.succ_lt_succ hlt

lemma inOrderOf_distinctFrom (seen ids : List Text) : InOrderOf ids (distinctFrom seen ids) := by
  induction ids generalizing seen with
  | nil => exact .nil
  | cons first ids ih =>
    rw [distinctFrom]
    split_ifs with hseen
    · exact inOrderOf_cons (ih seen) fun hmem => (mem_distinctFrom.mp hmem).2 hseen
    · have hfresh : first ∉ distinctFrom (first :: seen) ids :=
        fun hmem => (mem_distinctFrom.mp hmem).2 List.mem_cons_self
      refine List.pairwise_cons.mpr ⟨fun b hb => ?_, inOrderOf_cons (ih _) hfresh⟩
      have hne : first ≠ b := fun heq => hfresh (heq ▸ hb)
      rw [List.idxOf_cons_self, List.idxOf_cons_ne ids hne]
      exact Nat.succ_pos _

/-! ## Buckets of a side -/

lemma mem_alone : id ∈ alone ids others ↔ id ∈ ids ∧ id ∉ others := by
  simp [alone, mem_distinct]

lemma inOrderOf_alone (ids others : List Text) : InOrderOf ids (alone ids others) :=
  (inOrderOf_distinctFrom [] ids).filter _

lemma mem_shared : id ∈ shared ids others ↔ id ∈ ids ∧ id ∈ others := by
  simp [shared, mem_distinct]

lemma inOrderOf_shared (ids others : List Text) : InOrderOf ids (shared ids others) :=
  (inOrderOf_distinctFrom [] ids).filter _

lemma apart_perm (p : Text → Bool) (l : List Text) :
    ((l.filter fun id => !p id) ++ l.filter p).Perm l :=
  List.perm_append_comm.trans (List.filter_append_perm p l)

/-- Whether near matches are asked for and the identifier of a side comes near one that the other
side alone has. -/
def comesNear (fuzzy : Bool) (ids others : List Text) (id : Text) : Bool :=
  fuzzy && (Keys.ofIds (alone others ids)).matchesId id

/-- Each side's own identifiers are told apart by whether they come near one of the other side. -/
lemma compare_eq_near (fuzzy withCommon : Bool) (executed catalogued : List Text) :
    Reconcile.compare fuzzy withCommon executed catalogued =
      { onlyExecuted := (alone executed catalogued).filter fun id =>
          !comesNear fuzzy executed catalogued id
        nearExecuted := (alone executed catalogued).filter (comesNear fuzzy executed catalogued)
        onlyCatalogued := (alone catalogued executed).filter fun id =>
          !comesNear fuzzy catalogued executed id
        nearCatalogued := (alone catalogued executed).filter (comesNear fuzzy catalogued executed)
        common := if withCommon then some (shared executed catalogued) else none } := by
  have hwithout (ids others : List Text) :
      ((distinct ids).filter fun id => decide (id ∉ distinct others)) = alone ids others := by
    simp [alone]
  have hwithin (ids others : List Text) :
      ((distinct ids).filter fun id => decide (id ∈ distinct others)) = shared ids others := by
    simp [shared]
  simp only [Reconcile.compare, hwithout, hwithin]
  cases fuzzy with
  | false => simp [comesNear]
  | true =>
    simp only [partitionNear, List.partition_eq_filter_filter, if_true]
    rfl

lemma compare_eq (fuzzy withCommon : Bool) (executed catalogued : List Text) :
    ∃ p q : Text → Bool, Reconcile.compare fuzzy withCommon executed catalogued =
      { onlyExecuted := (alone executed catalogued).filter fun id => !p id
        nearExecuted := (alone executed catalogued).filter p
        onlyCatalogued := (alone catalogued executed).filter fun id => !q id
        nearCatalogued := (alone catalogued executed).filter q
        common := if withCommon then some (shared executed catalogued) else none } :=
  ⟨_, _, compare_eq_near fuzzy withCommon executed catalogued⟩

/-- What the buckets hold together: what either side has alone, and what both have. -/
lemma bucketed_perm (fuzzy : Bool) (executed catalogued : List Text) :
    (bucketed (Reconcile.compare fuzzy true executed catalogued)).Perm
      (alone executed catalogued ++ alone catalogued executed ++ shared executed catalogued) := by
  obtain ⟨p, q, hr⟩ := compare_eq fuzzy true executed catalogued
  rw [hr]
  exact ((apart_perm p _).append (apart_perm q _)).append_right _

lemma nodup_bucketed (fuzzy : Bool) (executed catalogued : List Text) :
    (bucketed (Reconcile.compare fuzzy true executed catalogued)).Nodup := by
  rw [(bucketed_perm fuzzy executed catalogued).nodup_iff]
  have hexecuted := (inOrderOf_alone executed catalogued).nodup
  have hcatalogued := (inOrderOf_alone catalogued executed).nodup
  have hshared := (inOrderOf_shared executed catalogued).nodup
  refine (hexecuted.append hcatalogued fun id hid hid' => ?_).append hshared fun id hid hid' => ?_
  · exact (mem_alone.mp hid').2 (mem_alone.mp hid).1
  · obtain ⟨hid₁, hid₂⟩ := mem_shared.mp hid'
    rcases List.mem_append.mp hid with hid | hid
    · exact (mem_alone.mp hid).2 hid₂
    · exact (mem_alone.mp hid).2 hid₁

lemma mem_bucketed {fuzzy : Bool} {executed catalogued : List Text} :
    id ∈ bucketed (Reconcile.compare fuzzy true executed catalogued) ↔
      id ∈ executed ∨ id ∈ catalogued := by
  rw [(bucketed_perm fuzzy executed catalogued).mem_iff]
  simp only [List.mem_append, mem_alone, mem_shared]
  tauto

/-- Reconciliation is an exact partition. -/
theorem reconcile_partition (fuzzy : Bool) (executed catalogued : List Text) :
    let r := (Reconcile.run fuzzy true executed catalogued).value
    -- every identifier of either side stands in one bucket and once there, and nothing else does
    (∀ id, (bucketed r).count id = if id ∈ executed ∨ id ∈ catalogued then 1 else 0) ∧
    -- which identifiers the buckets of a side hold
    (∀ id, id ∈ r.onlyExecuted ++ r.nearExecuted ↔ id ∈ executed ∧ id ∉ catalogued) ∧
    (∀ id, id ∈ r.onlyCatalogued ++ r.nearCatalogued ↔ id ∈ catalogued ∧ id ∉ executed) ∧
    -- in which order
    InOrderOf executed r.onlyExecuted ∧ InOrderOf executed r.nearExecuted ∧
    InOrderOf catalogued r.onlyCatalogued ∧ InOrderOf catalogued r.nearCatalogued ∧
    -- and the same of the common identifiers
    ∃ common, r.common = some common ∧ InOrderOf executed common ∧
      ∀ id, id ∈ common ↔ id ∈ executed ∧ id ∈ catalogued := by
  have hvalue : (Reconcile.run fuzzy true executed catalogued).value =
      Reconcile.compare fuzzy true executed catalogued := rfl
  have hexecuted := inOrderOf_alone executed catalogued
  have hcatalogued := inOrderOf_alone catalogued executed
  obtain ⟨p, q, hr⟩ := compare_eq fuzzy true executed catalogued
  rw [hvalue]
  refine ⟨fun id => ?_, ?_⟩
  · rw [(nodup_bucketed fuzzy executed catalogued).count]
    simp only [mem_bucketed]
  · rw [hr]
    refine ⟨fun id => ?_, fun id => ?_, hexecuted.filter _, hexecuted.filter _,
      hcatalogued.filter _, hcatalogued.filter _, _, rfl, inOrderOf_shared executed catalogued,
      fun id => mem_shared⟩
    · rw [(apart_perm p _).mem_iff, mem_alone]
    · rw [(apart_perm q _).mem_iff, mem_alone]

end TestCatalog.Proofs
