import Mathlib.Data.List.Nodup
import TestCatalog.Case.Json
import TestCatalog.Proofs.Maps
import TestCatalog.Reconcile.Json

/-!
# Payloads

A payload is read back as the value that was written, both as it is written and in its canonical
form, which forgets the order of fields. So values that differ are written as different payloads.
-/

namespace TestCatalog.Proofs

/-! ## Equal JSON values -/

mutual

/-- The value with the fields of every object in key order, where of fields with one key the last
counts. Values are the same JSON if their canonical forms are. -/
def canonical : Json → Json
  | .array items => .array (canonicalItems items)
  | .object fields => .object (SortedMap.ofList (canonicalFields fields)).entries
  | json => json

def canonicalItems : List Json → List Json
  | [] => []
  | item :: items => canonical item :: canonicalItems items

def canonicalFields : List (Text × Json) → List (Text × Json)
  | [] => []
  | (key, value) :: fields => (key, canonical value) :: canonicalFields fields

end

/-- The forms in which a payload comes. -/
inductive IsForm : (Json → Json) → Prop where
  | written : IsForm id
  | canonical : IsForm canonical

lemma canonicalItems_eq (items : List Json) : canonicalItems items = items.map canonical := by
  induction items with
  | nil => rfl
  | cons item items ih => rw [canonicalItems, ih, List.map_cons]

lemma canonicalFields_eq (fields : List (Text × Json)) :
    canonicalFields fields = fields.map fun field => (field.1, canonical field.2) := by
  induction fields with
  | nil => rfl
  | cons field fields ih => rw [canonicalFields, ih, List.map_cons]

/-! ## Readers -/

/-- The reader gets the value from the payload, in whichever form that comes. -/
def Reads {α : Type} (read? : Json → Option α) (json : Json) (a : α) : Prop :=
  ∀ form, IsForm form → read? (form json) = some a

section Readers

variable {α : Type} {read? : Json → Option α} {encode : α → Json}

lemma reads_text (t : Text) : Reads Json.toText? (.string t) t := by
  rintro form (_ | _) <;> rfl

lemma reads_word {n : ℕ} (h : n < Nat.pow 2 64) : Reads Json.toWord? (.natural n) n := by
  rintro form (_ | _) <;> exact if_pos h

/-- An absent value is not mistaken for one that is there, as no value is written as null. -/
lemma reads_option (hnull : read? .null = none) {o : Option α}
    (h : ∀ a ∈ o, Reads read? (encode a) a) :
    Reads (Json.toOption? read?) (Json.ofOption encode o) o := by
  intro form hform
  cases o with
  | none => cases hform <;> rfl
  | some a =>
    have hread := h a rfl form hform
    have hvalue : Json.toOption? read? (form (encode a)) = (read? (form (encode a))).map some := by
      cases hjson : form (encode a) with
      | null =>
        rw [hjson, hnull] at hread
        cases hread
      | _ => rfl
    exact hvalue.trans (by rw [hread]; rfl)

lemma mapM_map_eq_some {β γ : Type} {f : β → Option γ} {g : γ → β} {l : List γ}
    (h : ∀ a ∈ l, f (g a) = some a) : (l.map g).mapM f = some l := by
  induction l with
  | nil => rfl
  | cons a l ih =>
    obtain ⟨ha, hl⟩ := List.forall_mem_cons.mp h
    rw [List.map_cons, List.mapM_cons, ha, ih hl]
    rfl

lemma reads_list {l : List α} (h : ∀ a ∈ l, Reads read? (encode a) a) :
    Reads (Json.toList? read?) (.array (l.map encode)) l := by
  intro form hform
  cases hform with
  | written => exact mapM_map_eq_some fun a ha => h a ha id .written
  | canonical =>
    rw [canonical, canonicalItems_eq, List.map_map]
    exact mapM_map_eq_some fun a ha => h a ha canonical .canonical

lemma field?_of_mem {fields : List (Text × Json)} (h : (fields.map Prod.fst).Nodup) {key : Text}
    {value : Json} (hmem : (key, value) ∈ fields) : Json.field? fields key = some value := by
  unfold Json.field?
  cases hfind : fields.reverse.find? fun field => field.1 = key with
  | none =>
    have hne := List.find?_eq_none.mp hfind (key, value) (List.mem_reverse.mpr hmem)
    simp at hne
  | some field =>
    have hkey : field.1 = key := by simpa using List.find?_some hfind
    have hin := List.mem_reverse.mp (List.mem_of_find?_eq_some hfind)
    rw [List.inj_on_of_nodup_map h hin hmem hkey]
    rfl

/-- The values of a record with the wanted fields, in the order in which they are wanted. -/
lemma toRecord?_object {keys : List (Text × Bool)} {fields : List (Text × Json)}
    (hkeys : keys.map Prod.fst = fields.map Prod.fst) (hnodup : (keys.map Prod.fst).Nodup)
    {form : Json → Json} (hform : IsForm form) :
    (form (.object fields)).toRecord? keys = some (fields.map fun field => form field.2) := by
  rw [hkeys] at hnodup
  obtain ⟨fields', hobject, hfield⟩ : ∃ fields', form (.object fields) = .object fields' ∧
      ∀ field ∈ fields, Json.field? fields' field.1 = some (form field.2) := by
    cases hform with
    | written => exact ⟨fields, rfl, fun field hmem => field?_of_mem hnodup hmem⟩
    | canonical =>
      have hnodup' : ((canonicalFields fields).map Prod.fst).Nodup := by
        rwa [canonicalFields_eq, List.map_map]
      refine ⟨_, rfl, fun field hmem => field?_of_mem (nodup_map_key _) ?_⟩
      rw [mem_ofList_iff hnodup', canonicalFields_eq]
      exact List.mem_map_of_mem hmem
  rw [hobject]
  unfold Json.toRecord?
  dsimp only
  clear hobject hnodup
  induction fields generalizing keys with
  | nil =>
    rw [List.map_eq_nil_iff.mp hkeys]
    rfl
  | cons field fields ih =>
    obtain ⟨hfirst, hrest⟩ := List.forall_mem_cons.mp hfield
    obtain ⟨⟨key, optional⟩, keys, rfl, rfl, htail⟩ := List.map_eq_cons_iff.mp hkeys
    rw [List.mapM_cons, ih htail hrest]
    dsimp only
    rw [hfirst]
    rfl

end Readers

/-! ## Test cases -/

/-- Every number in the track is a word of 64 bits. -/
structure IsWordTrack (track : Track) : Prop where
  projectId : track.projectId < Nat.pow 2 64
  caseId : ∀ id ∈ track.caseId, id < Nat.pow 2 64
  parentId : track.parentId < Nat.pow 2 64

/-- Every number in the case is a word of 64 bits. -/
def IsWordCase (case : TestCase) : Prop :=
  ∀ entry ∈ case.projects.entries, ∀ track ∈ entry.2, IsWordTrack track

lemma reads_step (step : Step) : Reads Step.ofJson? step.toJson step := by
  intro form hform
  have htext (t : Text) := reads_text t form hform
  unfold Step.ofJson? Step.toJson
  rw [toRecord?_object rfl (by decide) hform]
  simp only [Option.bind_eq_bind, Option.bind_some, List.map, htext]
  rfl

lemma reads_status (status : SyncStatus) : Reads SyncStatus.ofJson? status.toJson status := by
  rintro form (_ | _) <;> cases status <;> rfl

lemma reads_track {track : Track} (h : IsWordTrack track) :
    Reads Track.ofJson? track.toJson track := by
  intro form hform
  have hcaseId : Reads (Json.toOption? Json.toWord?) (.ofOption .natural track.caseId)
      track.caseId :=
    reads_option rfl fun id hid => reads_word (h.caseId id hid)
  have hstatus : Reads (Json.toOption? SyncStatus.ofJson?)
      (.ofOption SyncStatus.toJson track.status) track.status :=
    reads_option rfl fun status _ => reads_status status
  unfold Track.ofJson? Track.toJson
  rw [toRecord?_object rfl (by decide) hform]
  simp only [Option.bind_eq_bind, Option.bind_some, List.map, reads_word h.projectId form hform,
    hcaseId form hform, reads_word h.parentId form hform, hstatus form hform]
  rfl

/-- The projects are written in key order, so that the canonical form keeps their order. -/
lemma form_projectsToJson (projects : SortedMap Text (Option Track)) {form : Json → Json}
    (hform : IsForm form) :
    form (TestCase.projectsToJson projects) = .object (projects.entries.map fun entry =>
      (entry.1, form (.ofOption Track.toJson entry.2))) := by
  cases hform with
  | written => rfl
  | canonical =>
    have hsorted : (projects.entries.map fun entry =>
        (entry.1, canonical (.ofOption Track.toJson entry.2))).Pairwise
          fun a b => a.1 < b.1 :=
      List.pairwise_map.mpr projects.sorted
    rw [TestCase.projectsToJson, canonical, canonicalFields_eq, List.map_map]
    exact congrArg Json.object (entries_ofList hsorted)

lemma reads_projects {projects : SortedMap Text (Option Track)}
    (h : ∀ entry ∈ projects.entries, ∀ track ∈ entry.2, IsWordTrack track) :
    Reads TestCase.projectsOfJson? (TestCase.projectsToJson projects) projects := by
  intro form hform
  rw [form_projectsToJson projects hform]
  unfold TestCase.projectsOfJson?
  dsimp only
  rw [mapM_map_eq_some (l := projects.entries)]
  · exact congrArg some (SortedMap.ext_entries (entries_ofList projects.sorted))
  · intro entry hentry
    have htrack : Reads (Json.toOption? Track.ofJson?) (.ofOption Track.toJson entry.2) entry.2 :=
      reads_option rfl fun track htrack => reads_track (h entry hentry track htrack)
    dsimp only
    rw [htrack form hform]
    rfl

lemma reads_case {case : TestCase} (h : IsWordCase case) :
    Reads TestCase.ofJson? case.toJson case := by
  intro form hform
  have hsteps : Reads (Json.toList? Step.ofJson?) (.array (case.steps.map Step.toJson))
      case.steps :=
    reads_list fun step _ => reads_step step
  have htext (t : Text) := reads_text t form hform
  unfold TestCase.ofJson? TestCase.toJson
  rw [toRecord?_object rfl (by decide) hform]
  simp only [Option.bind_eq_bind, Option.bind_some, List.map, htext, hsteps form hform,
    reads_projects h form hform]
  rfl

/-! ## Reconciliations -/

lemma reads_ids (ids : List Text) :
    Reads Reconciliation.idsOfJson? (Reconciliation.idsToJson ids) ids :=
  reads_list fun id _ => reads_text id

lemma reads_reconciliation (r : Reconciliation) :
    Reads Reconciliation.ofJson? r.toJson r := by
  intro form hform
  have hids (ids : List Text) := reads_ids ids form hform
  have hcommon : Reads (Json.toOption? Reconciliation.idsOfJson?)
      ((r.common.map Reconciliation.idsToJson).getD .null) r.common := by
    have hwritten : (r.common.map Reconciliation.idsToJson).getD .null =
        .ofOption Reconciliation.idsToJson r.common := by
      cases r.common <;> rfl
    rw [hwritten]
    exact reads_option rfl fun ids _ => reads_ids ids
  unfold Reconciliation.ofJson? Reconciliation.toJson
  rw [toRecord?_object rfl (by decide) hform]
  simp only [Option.bind_eq_bind, Option.bind_some, List.map, hids, hcommon form hform]
  rfl

/-! ## Payloads and values -/

/-- A value can be told from its payload if it can be read from the canonical form. -/
lemma canonical_eq_iff {α : Type} {read? : Json → Option α} {json json' : Json} {a a' : α}
    (h : Reads read? json a) (h' : Reads read? json' a') (hjson : a = a' → json = json') :
    canonical json = canonical json' ↔ a = a' := by
  constructor
  · intro heq
    have hread := h canonical .canonical
    rw [heq, h' canonical .canonical] at hread
    exact (Option.some.inj hread).symm
  · intro heq
    rw [hjson heq]

/-- Test cases and reconciliations are read back as they were written, and their payloads are the
same JSON only if they are equal. -/
theorem payloads_read_back {case other : TestCase} (hcase : IsWordCase case)
    (hother : IsWordCase other) (r r' : Reconciliation) :
    Reads TestCase.ofJson? case.toJson case ∧
      (canonical case.toJson = canonical other.toJson ↔ case = other) ∧
      Reads Reconciliation.ofJson? r.toJson r ∧
      (canonical r.toJson = canonical r'.toJson ↔ r = r') := by
  refine ⟨reads_case hcase, ?_, reads_reconciliation r, ?_⟩
  · exact canonical_eq_iff (reads_case hcase) (reads_case hother) (congrArg TestCase.toJson)
  · exact canonical_eq_iff (reads_reconciliation r) (reads_reconciliation r')
      (congrArg Reconciliation.toJson)

/-- Projects without a track, with a bare track and with a full one. -/
def sampleProjects : SortedMap Text (Option Track) where
  entries := [("ALPHA", none), ("BETA", some ⟨Nat.pow 2 64 - 1, none, 0, none⟩),
    ("GAMMA", some ⟨1, some (Nat.pow 2 64 - 1), Nat.pow 2 64 - 1, some .outOfSync⟩)]
  sorted := by decide

def sampleCase : TestCase where
  name := "Login"
  globalId := "WEB-0001"
  folder := "/auth"
  steps := [⟨"Open", "Opened", ""⟩]
  projects := sampleProjects

theorem sampleCase_read_back :
    IsWordCase sampleCase ∧ IsWordCase { sampleCase with projects := {} } ∧
      Reads TestCase.ofJson? sampleCase.toJson sampleCase ∧
      canonical sampleCase.toJson ≠ canonical { sampleCase with projects := {} }.toJson := by
  have hword : IsWordCase sampleCase := by
    intro entry hentry track htrack
    simp only [sampleCase, sampleProjects, List.mem_cons, List.not_mem_nil, or_false] at hentry
    rcases hentry with rfl | rfl | rfl
    · cases htrack
    · cases htrack
      exact ⟨by decide, by simp, by decide⟩
    · cases htrack
      exact ⟨by decide, by simp, by decide⟩
  have hword' : IsWordCase { sampleCase with projects := {} } := by
    intro entry hentry
    cases hentry
  obtain ⟨hread, hsame, -⟩ := payloads_read_back hword hword' ⟨[], [], [], [], none⟩
    ⟨[], [], [], [], some []⟩
  exact ⟨hword, hword', hread, fun h => absurd (hsame.mp h) (by decide)⟩

end TestCatalog.Proofs
