import Mathlib.Data.Finset.Dedup
import Mathlib.Data.List.TakeWhile
import TestCatalog.Proofs.Buckets

/-!
# Near matches

An identifier that one side alone has comes near the other side if it has a partner there: an
identifier that the other side alone has, with the same part before the colon or the same part after
it. Partners come in pairs, so that the sides can be exchanged. What a bucket holds depends only on
which identifiers the sides hold, and not on their order or number.
-/

namespace TestCatalog.Proofs

open Reconcile (distinct distinctFrom parts Keys)

variable {ids others : List Text} {id : Text}

/-! ## Partners -/

/-- The parts of an identifier around its first colon; without a colon both are the identifier. -/
def Splits (id before after : Text) : Prop :=
  (':' ∉ before ∧ id = before ++ ':' :: after) ∨ (':' ∉ id ∧ before = id ∧ after = id)

/-- Identifiers with the same part before the colon or the same part after it. -/
def Partners (a b : Text) : Prop :=
  ∃ before after before' after', Splits a before after ∧ Splits b before' after' ∧
    (before = before' ∨ after = after')

lemma splits_parts (id : Text) : Splits id (parts id).1 (parts id).2 := by
  have hbefore : ':' ∉ id.takeWhile (· ≠ ':') := fun hcolon => by
    simpa using List.mem_takeWhile_imp hcolon
  have hid : id.takeWhile (· ≠ ':') ++ id.dropWhile (· ≠ ':') = id := List.takeWhile_append_dropWhile
  unfold parts
  cases hrest : id.dropWhile (· ≠ ':') with
  | nil =>
    rw [hrest, List.append_nil] at hid
    exact .inr ⟨hid ▸ hbefore, rfl, rfl⟩
  | cons c after =>
    have hc : c = ':' := by
      have hhead := List.head?_dropWhile_not (fun c => decide (c ≠ ':')) id
      rw [hrest] at hhead
      simpa using hhead
    rw [hrest, hc] at hid
    exact .inl ⟨hbefore, hid.symm⟩

lemma Splits.parts_eq {before after : Text} (h : Splits id before after) :
    parts id = (before, after) := by
  have hkept {before : Text} (hbefore : ':' ∉ before) : ∀ c ∈ before, decide (c ≠ ':') = true :=
    fun c hc => by simpa using fun heq : c = ':' => hbefore (heq ▸ hc)
  unfold parts
  rcases h with ⟨hbefore, rfl⟩ | ⟨hid, rfl, rfl⟩
  · rw [List.dropWhile_append_of_pos (hkept hbefore), List.takeWhile_append_of_pos (hkept hbefore),
      List.dropWhile_cons_of_neg (by simp), List.takeWhile_cons_of_neg (by simp), List.append_nil]
  · rw [List.dropWhile_eq_nil_iff.mpr (hkept hid)]

lemma partners_iff {a b : Text} :
    Partners a b ↔ (parts a).1 = (parts b).1 ∨ (parts a).2 = (parts b).2 := by
  constructor
  · rintro ⟨before, after, before', after', ha, hb, hsame⟩
    rw [ha.parts_eq, hb.parts_eq]
    exact hsame
  · exact fun hsame => ⟨_, _, _, _, splits_parts a, splits_parts b, hsame⟩

lemma Partners.symm {a b : Text} (h : Partners a b) : Partners b a := by
  rw [partners_iff] at h ⊢
  exact h.imp Eq.symm Eq.symm

/-! ## What a bucket holds -/

lemma value_reconcile (fuzzy withCommon : Bool) (executed catalogued : List Text) :
    (Reconcile.run fuzzy withCommon executed catalogued).value =
      Reconcile.compare fuzzy withCommon executed catalogued :=
  rfl

lemma distinctFrom_eq (seen ids : List Text) :
    distinctFrom seen ids = (ids.filter (· ∉ seen)).eraseDups := by
  induction ids generalizing seen with
  | nil => rfl
  | cons first ids ih =>
    rw [distinctFrom]
    split_ifs with hseen
    · rw [ih, List.filter_cons_of_neg (by simpa using hseen)]
    · have hkept : (ids.filter fun id => decide (id ∉ first :: seen)) =
          (ids.filter fun id => decide (id ∉ seen)).filter fun id => !id == first := by
        rw [List.filter_filter]
        exact List.filter_congr fun id _ => by simp [Bool.beq_eq_decide_eq]
      rw [ih, List.filter_cons_of_pos (by simpa using hseen), List.eraseDups_cons, hkept]

lemma alone_eq (ids others : List Text) :
    alone ids others = ids.eraseDups.filter (· ∉ others) := by
  have hdistinct : distinct ids = ids.eraseDups := by
    rw [distinct, distinctFrom_eq]
    simp
  rw [alone, hdistinct]
  simp [mem_distinct]

/-- The pooled parts of a side match an identifier if and only if it has a partner there. -/
lemma matchesId_ofIds : (Keys.ofIds ids).matchesId id = true ↔ ∃ other ∈ ids, Partners id other := by
  simp only [Keys.matchesId, Keys.ofIds, List.unzip_eq_map, List.map_map, Bool.or_eq_true,
    decide_eq_true_eq, List.mem_map, Function.comp_apply, partners_iff]
  rw [← exists_or]
  refine exists_congr fun other => ?_
  rw [← and_or_left, eq_comm, eq_comm (b := (parts id).2)]

lemma comesNear_iff {fuzzy : Bool} : comesNear fuzzy ids others id = true ↔
    fuzzy = true ∧ ∃ other, (other ∈ others ∧ other ∉ ids) ∧ Partners id other := by
  simp only [comesNear, Bool.and_eq_true, matchesId_ofIds, mem_alone]

lemma mem_near_iff {fuzzy : Bool} : id ∈ (alone ids others).filter (comesNear fuzzy ids others) ↔
    id ∈ alone ids others ∧ fuzzy = true ∧ ∃ other ∈ alone others ids, Partners id other := by
  simp only [List.mem_filter, comesNear_iff, mem_alone]

/-- The partner of a near match is a near match itself. -/
lemma exists_partner {fuzzy : Bool}
    (h : id ∈ (alone ids others).filter (comesNear fuzzy ids others)) :
    ∃ other ∈ (alone others ids).filter (comesNear fuzzy others ids), Partners id other := by
  obtain ⟨hid, hfuzzy, other, hother, hpartners⟩ := mem_near_iff.mp h
  exact ⟨other, mem_near_iff.mpr ⟨hother, hfuzzy, id, hid, hpartners.symm⟩, hpartners⟩

lemma near_eq_nil_of_near_eq_nil {fuzzy : Bool}
    (h : (alone ids others).filter (comesNear fuzzy ids others) = []) :
    (alone others ids).filter (comesNear fuzzy others ids) = [] := by
  refine List.eq_nil_iff_forall_not_mem.mpr fun other hother => ?_
  obtain ⟨id, hid, -⟩ := exists_partner hother
  rw [h] at hid
  exact List.not_mem_nil hid

/-- Near matches are the identifiers with a partner, and partners come in pairs. -/
theorem near_iff_partner (withCommon : Bool) (executed catalogued : List Text) :
    let r := (Reconcile.run true withCommon executed catalogued).value
    let plain := (Reconcile.run false withCommon executed catalogued).value
    let aloneExecuted := executed.eraseDups.filter (· ∉ catalogued)
    let aloneCatalogued := catalogued.eraseDups.filter (· ∉ executed)
    (∀ id, id ∈ r.nearExecuted ↔
      id ∈ aloneExecuted ∧ ∃ other ∈ aloneCatalogued, Partners id other) ∧
    (∀ id, id ∈ r.nearCatalogued ↔
      id ∈ aloneCatalogued ∧ ∃ other ∈ aloneExecuted, Partners id other) ∧
    -- a near match has its partner among the near matches of the other side
    (∀ id ∈ r.nearExecuted, ∃ other ∈ r.nearCatalogued, Partners id other) ∧
    (∀ id ∈ r.nearCatalogued, ∃ other ∈ r.nearExecuted, Partners id other) ∧
    (r.nearExecuted = [] ↔ r.nearCatalogued = []) ∧
    -- where near matches are not asked for
    plain.nearExecuted = [] ∧ plain.nearCatalogued = [] ∧
    plain.onlyExecuted = aloneExecuted ∧ plain.onlyCatalogued = aloneCatalogued := by
  simp only [value_reconcile, compare_eq_near, ← alone_eq]
  refine ⟨fun id => ?_, fun id => ?_, fun id hid => exists_partner hid,
    fun id hid => exists_partner hid,
    ⟨near_eq_nil_of_near_eq_nil, near_eq_nil_of_near_eq_nil⟩, ?_⟩
  · simp only [mem_near_iff, true_and]
  · simp only [mem_near_iff, true_and]
  · simp [comesNear]

/-! ## Sides and orders -/

/-- The same identifiers in every bucket, in whatever order. -/
structure SameSets (r r' : Reconciliation) : Prop where
  onlyExecuted : r.onlyExecuted.toFinset = r'.onlyExecuted.toFinset
  onlyCatalogued : r.onlyCatalogued.toFinset = r'.onlyCatalogued.toFinset
  nearExecuted : r.nearExecuted.toFinset = r'.nearExecuted.toFinset
  nearCatalogued : r.nearCatalogued.toFinset = r'.nearCatalogued.toFinset
  common : r.common.map List.toFinset = r'.common.map List.toFinset

section SameElements

variable {ids' others' : List Text} (hids : ids.toFinset = ids'.toFinset)
  (hothers : others.toFinset = others'.toFinset)

include hids hothers

lemma comesNear_congr (fuzzy : Bool) : comesNear fuzzy ids others = comesNear fuzzy ids' others' := by
  rw [List.toFinset.ext_iff] at hids hothers
  funext id
  rw [Bool.eq_iff_iff, comesNear_iff, comesNear_iff]
  simp only [hids, hothers]

lemma toFinset_filter_alone (p : Text → Bool) :
    ((alone ids others).filter p).toFinset = ((alone ids' others').filter p).toFinset := by
  rw [List.toFinset.ext_iff] at hids hothers ⊢
  simp only [List.mem_filter, mem_alone, hids, hothers, implies_true]

lemma toFinset_shared : (shared ids others).toFinset = (shared ids' others').toFinset := by
  rw [List.toFinset.ext_iff] at hids hothers ⊢
  simp only [mem_shared, hids, hothers, implies_true]

end SameElements

lemma toFinset_shared_comm (ids others : List Text) :
    (shared ids others).toFinset = (shared others ids).toFinset := by
  rw [List.toFinset.ext_iff]
  simp only [mem_shared, and_comm, implies_true]

lemma sameSets_compare {executed executed' catalogued catalogued' : List Text}
    (hexecuted : executed.toFinset = executed'.toFinset)
    (hcatalogued : catalogued.toFinset = catalogued'.toFinset) (fuzzy withCommon : Bool) :
    SameSets (Reconcile.compare fuzzy withCommon executed catalogued)
      (Reconcile.compare fuzzy withCommon executed' catalogued') := by
  rw [compare_eq_near, compare_eq_near, comesNear_congr hexecuted hcatalogued,
    comesNear_congr hcatalogued hexecuted]
  refine ⟨toFinset_filter_alone hexecuted hcatalogued _,
    toFinset_filter_alone hcatalogued hexecuted _, toFinset_filter_alone hexecuted hcatalogued _,
    toFinset_filter_alone hcatalogued hexecuted _, ?_⟩
  cases withCommon with
  | false => rfl
  | true => exact congrArg some (toFinset_shared hexecuted hcatalogued)

/-- Exchanging the sides exchanges their buckets, and the buckets hold the same identifiers whatever
the order and the number in which a side lists them. -/
theorem reconcile_sides (fuzzy withCommon : Bool) (executed catalogued : List Text) :
    let r := (Reconcile.run fuzzy withCommon executed catalogued).value
    let exchanged := (Reconcile.run fuzzy withCommon catalogued executed).value
    (exchanged.onlyExecuted = r.onlyCatalogued ∧ exchanged.onlyCatalogued = r.onlyExecuted ∧
      exchanged.nearExecuted = r.nearCatalogued ∧ exchanged.nearCatalogued = r.nearExecuted ∧
      exchanged.common.map List.toFinset = r.common.map List.toFinset) ∧
    ∀ executed' catalogued' : List Text, executed.toFinset = executed'.toFinset →
      catalogued.toFinset = catalogued'.toFinset →
      SameSets r (Reconcile.run fuzzy withCommon executed' catalogued').value := by
  simp only [value_reconcile]
  refine ⟨?_, fun executed' catalogued' hexecuted hcatalogued =>
    sameSets_compare hexecuted hcatalogued fuzzy withCommon⟩
  simp only [compare_eq_near, true_and]
  cases withCommon with
  | false => rfl
  | true => exact congrArg some (toFinset_shared_comm catalogued executed)

theorem reconcile_sides_repeated :
    let executed : List Text := ["b:1", "a", "c", "b:1"]
    let executed' : List Text := ["c", "b:1", "a"]
    let catalogued : List Text := ["b:2", "a"]
    let catalogued' : List Text := ["a", "b:2", "a"]
    executed.toFinset = executed'.toFinset ∧ catalogued.toFinset = catalogued'.toFinset ∧
      SameSets (Reconcile.run true true executed catalogued).value
        (Reconcile.run true true executed' catalogued').value := by
  intro executed executed' catalogued catalogued'
  have hexecuted : executed.toFinset = executed'.toFinset := by decide
  have hcatalogued : catalogued.toFinset = catalogued'.toFinset := by decide
  exact ⟨hexecuted, hcatalogued, (reconcile_sides true true executed catalogued).2 executed'
    catalogued' hexecuted hcatalogued⟩

end TestCatalog.Proofs
