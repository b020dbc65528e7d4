import TestCatalog.Diagnostics.Buffer
import TestCatalog.Proofs.FileAttribution

/-!
# Recent events

Events are sent to a service, its minimum level is changed and its logger is emptied, in any order.
The logger then took in a list that is told without it: the events that were sent since it was last
emptied and passed the level that was in force when they were sent. A buffer holds the end of the
list.
-/

namespace TestCatalog.Proofs

/-! ## Calls -/

inductive LogCall where
  | send (e : Event)
  | setLevel (min : Level)
  | clear

namespace LogCall

def apply {α : Type} [Logger α] [EmptyCollection α] (service : LogService α) :
    LogCall → LogService α
  | send e => service.log e
  | setLevel min => service.setLevel min
  | clear => service.clear

def isClear : LogCall → Bool
  | clear => true
  | _ => false

def level? : LogCall → Option Level
  | setLevel min => some min
  | _ => none

/-- The event that is sent, if it passes the level. -/
def passing? (min : Level) : LogCall → Option Event
  | send e => if e.level.rank ≤ min.rank then some e else none
  | _ => none

end LogCall

/-- The level in force after the calls: the one that was set last. -/
def levelAfter (min : Level) (calls : List LogCall) : Level :=
  (calls.filterMap LogCall.level?).getLast?.getD min

/-- The calls, each with the level that was in force when it was made. -/
def leveled (min : Level) (calls : List LogCall) : List (Level × LogCall) :=
  calls.mapIdx fun i call => (levelAfter min (calls.take i), call)

/-- The events that passed when they were sent, since the last call that clears. -/
def passedSince (min : Level) (calls : List LogCall) : List Event :=
  ((leveled min calls).rtakeWhile fun made => !made.2.isClear).filterMap
    fun made => made.2.passing? made.1

lemma levelAfter_concat (min : Level) (calls : List LogCall) (call : LogCall) :
    levelAfter min (calls ++ [call]) = call.level?.getD (levelAfter min calls) := by
  unfold levelAfter
  rw [List.filterMap_append]
  cases hlevel : call.level? with
  | none =>
    rw [List.filterMap_cons_none hlevel, List.filterMap_nil, List.append_nil, Option.getD_none]
  | some level =>
    rw [List.filterMap_cons_some hlevel, List.filterMap_nil, List.getLast?_concat, Option.getD_some,
      Option.getD_some]

lemma leveled_concat (min : Level) (calls : List LogCall) (call : LogCall) :
    leveled min (calls ++ [call]) = leveled min calls ++ [(levelAfter min calls, call)] := by
  unfold leveled
  rw [List.mapIdx_concat, List.take_left]
  congr 1
  -- a call that was made before sees the same calls before it
  refine List.mapIdx_eq_mapIdx_iff.mpr fun i hi => ?_
  rw [List.take_append_of_le_length hi.le]

lemma passedSince_concat (min : Level) (calls : List LogCall) (call : LogCall) :
    passedSince min (calls ++ [call]) = if call.isClear then []
      else passedSince min calls ++ (call.passing? (levelAfter min calls)).toList := by
  unfold passedSince
  rw [leveled_concat]
  exact filterMap_since_concat (fun made : Level × LogCall => made.2.isClear) _ _ _

/-! ## The buffer -/

/-- The events that stay are the most recent ones, one less than a buffer may hold. -/
lemma toList_makeRoom (events : Array Event) :
    (EventBuffer.makeRoom events).toList = events.toList.rtake (Limits.logBuffer - 1) := by
  have hpos : 0 < Limits.logBuffer := by decide
  unfold EventBuffer.makeRoom List.rtake
  rw [Array.length_toList]
  split_ifs with hfull
  · have hcount : events.size - Limits.logBuffer + 1 = events.size - (Limits.logBuffer - 1) := by
      omega
    rw [Array.drop_eq_extract, Array.toList_extract, List.extract_eq_take_drop, hcount]
    exact List.take_of_length_le (by rw [List.length_drop, Array.length_toList])
  · rw [Nat.sub_eq_zero_of_le (by omega), List.drop_zero]

lemma rtake_rtake {α : Type} {m n : ℕ} (h : m ≤ n) (l : List α) :
    (l.rtake n).rtake m = l.rtake m := by
  unfold List.rtake
  rw [List.drop_drop, List.length_drop]
  congr 1
  omega

/-- A buffer that took in some events holds the most recent ones. -/
theorem toList_foldl_log (events : List Event) :
    (events.foldl Logger.log (∅ : EventBuffer)).events.toList = events.rtake Limits.logBuffer := by
  induction events using List.reverseRecOn with
  | nil => exact (List.rtake_nil _).symm
  | append_singleton events e ih =>
    have hlimit : Limits.logBuffer = Limits.logBuffer - 1 + 1 := rfl
    rw [List.foldl_concat]
    show (EventBuffer.makeRoom _ |>.push e).toList = _
    rw [Array.toList_push, toList_makeRoom, ih, rtake_rtake (Nat.sub_le _ _),
      ← List.rtake_concat_succ, ← hlimit]

/-! ## Services -/

/-- A service after some calls: it is at the level in force, and its logger took in the events that
passed. -/
structure Recalls {α : Type} [Logger α] [EmptyCollection α] (min : Level) (calls : List LogCall)
    (service : LogService α) : Prop where
  level : service.minLevel = levelAfter min calls
  logger : service.logger = (passedSince min calls).foldl Logger.log ∅

variable {α : Type} [Logger α] [EmptyCollection α] {min : Level} {calls : List LogCall}
  {service : LogService α}

lemma Recalls.send (h : Recalls min calls service) (e : Event) :
    Recalls min (calls ++ [.send e]) (service.log e) := by
  have hlevel : levelAfter min (calls ++ [.send e]) = levelAfter min calls := levelAfter_concat ..
  have hpassed : passedSince min (calls ++ [.send e]) = passedSince min calls ++
      (LogCall.passing? (levelAfter min calls) (.send e)).toList := passedSince_concat ..
  have hservice : service.shouldLog e.level =
      decide (e.level.rank ≤ (levelAfter min calls).rank) := by
    rw [LogService.shouldLog, h.level]
    rfl
  unfold LogService.log
  rw [hservice]
  by_cases hpasses : e.level.rank ≤ (levelAfter min calls).rank
  · have hsent : passedSince min (calls ++ [.send e]) = passedSince min calls ++ [e] := by
      rw [hpassed, LogCall.passing?, if_pos hpasses]
      rfl
    rw [if_pos (decide_eq_true hpasses)]
    refine ⟨h.level.trans hlevel.symm, ?_⟩
    rw [hsent, List.foldl_concat, ← h.logger]
  · have hsent : passedSince min (calls ++ [.send e]) = passedSince min calls := by
      rw [hpassed, LogCall.passing?, if_neg hpasses, Option.toList_none, List.append_nil]
    rw [if_neg (by simpa using hpasses)]
    exact ⟨h.level.trans hlevel.symm, h.logger.trans (by rw [hsent])⟩

/-- What holds after some calls holds after one more. -/
lemma Recalls.step (h : Recalls min calls service) (call : LogCall) :
    Recalls min (calls ++ [call]) (call.apply service) := by
  cases call with
  | send e => exact h.send e
  | setLevel level =>
    have hlevel : levelAfter min (calls ++ [.setLevel level]) = level := levelAfter_concat ..
    have hpassed : passedSince min (calls ++ [.setLevel level]) = passedSince min calls :=
      (passedSince_concat ..).trans (List.append_nil _)
    exact ⟨hlevel.symm, h.logger.trans (by rw [hpassed])⟩
  | clear =>
    have hlevel : levelAfter min (calls ++ [.clear]) = levelAfter min calls := levelAfter_concat ..
    have hpassed : passedSince min (calls ++ [.clear]) = [] := passedSince_concat ..
    refine ⟨h.level.trans hlevel.symm, ?_⟩
    rw [hpassed]
    rfl

theorem recalls_foldl (α : Type) [Logger α] [EmptyCollection α] (min : Level)
    (calls : List LogCall) :
    Recalls min calls (calls.foldl LogCall.apply { minLevel := min, logger := (∅ : α) }) := by
  induction calls using List.reverseRecOn with
  | nil => exact ⟨rfl, rfl⟩
  | append_singleton calls call ih =>
    rw [List.foldl_concat]
    exact ih.step call

/-- Whatever is done to a new service: its buffer holds the most recent events that passed the level
in force when they were sent, since it was last emptied, and all questions are answered by these.
Any other logger takes in the same events. -/
theorem buffer_holds_recent (min : Level) (calls : List LogCall) :
    let service := calls.foldl LogCall.apply { minLevel := min, logger := (∅ : EventBuffer) }
    let recent := (passedSince min calls).rtake Limits.logBuffer
    service.logger.events.toList = recent ∧
      service.logger.errors = recent.filter Event.isError ∧
      service.logger.warnings = recent.filter Event.isWarning ∧
      (∀ code, service.logger.hasCode code = true ↔ ∃ e ∈ recent, e.code = code) ∧
      ∀ {α : Type} [Logger α] [EmptyCollection α],
        (calls.foldl LogCall.apply { minLevel := min, logger := (∅ : α) }).logger =
          (passedSince min calls).foldl Logger.log ∅ := by
  intro service recent
  have hheld : service.logger.events.toList = recent := by
    rw [(recalls_foldl EventBuffer min calls).logger]
    exact toList_foldl_log _
  refine ⟨hheld, congrArg (List.filter _) hheld, congrArg (List.filter _) hheld, fun code => ?_,
    (recalls_foldl _ min calls).logger⟩
  rw [EventBuffer.hasCode, ← Array.any_toList, hheld, List.any_eq_true]
  simp only [decide_eq_true_eq]

end TestCatalog.Proofs
