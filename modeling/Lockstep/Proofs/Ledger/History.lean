import Lockstep.Ledger
import Mathlib.Data.List.Induction
set_option autoImplicit false

/-!
# Histories of a ledger

A history tells which operations started, completed and failed, in the order in
which this was noted, and what the clock showed each time.  The clock need not
go forward.  The two logs of the ledger hold the completions and the failures of
the history, the newest first, without some of the oldest: noting an end puts a
record in front, and pruning cuts records off at the other end.
-/

namespace Lockstep

/-- Something that is noted in a ledger, with what the clock showed. -/
inductive LedgerEvent where
  | started (sequence : Nat) (time : Int)
  | completed (sequence : Nat) (time : Int)
  | failed (sequence : Nat) (time : Int)
  deriving DecidableEq, Repr

namespace LedgerEvent

/-- The record of a start. -/
def start? : LedgerEvent → Option LedgerRecord
  | .started sequence time => some ⟨sequence, time⟩
  | _ => none

/-- The record of a completion. -/
def completion? : LedgerEvent → Option LedgerRecord
  | .completed sequence time => some ⟨sequence, time⟩
  | _ => none

/-- The record of a failure. -/
def failure? : LedgerEvent → Option LedgerRecord
  | .failed sequence time => some ⟨sequence, time⟩
  | _ => none

end LedgerEvent

namespace Ledger

/-- The starts of a history, the oldest first. -/
def starts (history : List LedgerEvent) : List LedgerRecord :=
  history.filterMap LedgerEvent.start?

/-- The completions of a history, the newest first. -/
def completed (history : List LedgerEvent) : List LedgerRecord :=
  (history.filterMap LedgerEvent.completion?).reverse

/-- The failures of a history, the newest first. -/
def failed (history : List LedgerEvent) : List LedgerRecord :=
  (history.filterMap LedgerEvent.failure?).reverse

/-- Note an event.  A crash of the clock's arithmetic keeps what was noted before it. -/
def record (l : Ledger) : LedgerEvent → Ledger
  | .started sequence time => l.recordStart time sequence
  | .completed sequence time => (l.recordCompletion time sequence).1
  | .failed sequence time => (l.recordFailure time sequence).1

/-- Note the events of a history, the oldest first. -/
def recordAll (l : Ledger) (history : List LedgerEvent) : Ledger :=
  history.foldl record l

/-- An empty ledger. -/
def ofRetention (retention : Int) : Ledger := { retention := retention }

theorem recordAll_concat (l : Ledger) (history : List LedgerEvent)
    (event : LedgerEvent) :
    l.recordAll (history ++ [event]) = (l.recordAll history).record event := by
  unfold recordAll
  rw [List.foldl_append]
  rfl

/-! ## Histories that go on -/

section Concat

variable (history : List LedgerEvent) (event : LedgerEvent)

theorem starts_concat :
    starts (history ++ [event]) = starts history ++ event.start?.toList := by
  unfold starts
  rw [List.filterMap_append]
  cases event <;> rfl

theorem completed_concat :
    completed (history ++ [event]) = event.completion?.toList ++ completed history := by
  unfold completed
  rw [List.filterMap_append, List.reverse_append]
  cases event <;> rfl

theorem failed_concat :
    failed (history ++ [event]) = event.failure?.toList ++ failed history := by
  unfold failed
  rw [List.filterMap_append, List.reverse_append]
  cases event <;> rfl

end Concat

theorem mem_starts_iff {history : List LedgerEvent} {sequence : Nat} {time : Int} :
    ⟨sequence, time⟩ ∈ starts history ↔ .started sequence time ∈ history := by
  refine List.mem_filterMap.trans ⟨?_, fun h => ⟨_, h, rfl⟩⟩
  rintro ⟨event, hevent, hstart⟩
  cases event with
  | started _ _ =>
    cases hstart
    exact hevent
  | completed _ _ | failed _ _ => cases hstart

/-! ## What pruning keeps of a log -/

variable {l : Ledger} {history : List LedgerEvent}

theorem unexpired_append_expired (cutoff : Int) (records : List LedgerRecord) :
    unexpired cutoff records ++ (expired cutoff records).reverse = records := by
  unfold unexpired expired
  rw [← List.reverse_append, List.takeWhile_append_dropWhile, List.reverse_reverse]

theorem prefix_unexpired (cutoff : Int) (records : List LedgerRecord) :
    unexpired cutoff records <+: records :=
  ⟨_, unexpired_append_expired cutoff records⟩

theorem pruneAt_cases (l : Ledger) (now : Int) :
    (l.pruneAt now).1 = l ∨ (l.pruneAt now).1 = l.prune (now - l.retention) := by
  unfold pruneAt
  split
  · exact .inr rfl
  · exact .inl rfl

/-- The logs hold the newest completions and failures of a history. -/
structure Logs (history : List LedgerEvent) (l : Ledger) : Prop where
  completions : l.completions <+: completed history
  failures : l.failures <+: failed history

theorem Logs.pruneAt (h : Logs history l) (now : Int) :
    Logs history (l.pruneAt now).1 := by
  rcases l.pruneAt_cases now with hsame | hpruned
  · rw [hsame]
    exact h
  · rw [hpruned]
    exact ⟨(prefix_unexpired _ _).trans h.completions,
      (prefix_unexpired _ _).trans h.failures⟩

theorem Logs.noted (h : Logs history l) (event : LedgerEvent) :
    Logs (history ++ [event]) { l with
      completions := event.completion?.toList ++ l.completions
      failures := event.failure?.toList ++ l.failures } := by
  refine ⟨?_, ?_⟩
  · rw [completed_concat]
    exact (List.prefix_append_right_inj _).mpr h.completions
  · rw [failed_concat]
    exact (List.prefix_append_right_inj _).mpr h.failures

theorem Logs.record (h : Logs history l) (event : LedgerEvent) :
    Logs (history ++ [event]) (l.record event) := by
  have hnoted := h.noted event
  cases event with
  | started sequence time => exact ⟨hnoted.completions, hnoted.failures⟩
  | completed sequence time | failed sequence time =>
    refine Logs.pruneAt ?_ time
    exact ⟨hnoted.completions, hnoted.failures⟩

/-- Whatever is noted, and whatever the clock shows. -/
theorem logs_recordAll (retention : Int) (history : List LedgerEvent) :
    Logs history ((ofRetention retention).recordAll history) := by
  induction history using List.reverseRecOn with
  | nil => exact ⟨List.prefix_rfl, List.prefix_rfl⟩
  | append_singleton history event ih =>
    rw [recordAll_concat]
    exact ih.record event

end Ledger

end Lockstep
