import Lockstep.Proofs.Ledger.History
import Mathlib.Data.List.Nodup
set_option autoImplicit false

/-!
# Times that the ledger knows

The ledger keeps two tables of times beside its two logs.  In a history in which
each operation starts once and ends at most once, the finish times are those of
the completions in the log, and a start time is there until the record of the
operation's end is pruned.  Pruning may be held up by a record that the clock
has set to a later time, so what is kept does not follow the order of times; but
every record that goes takes exactly its own times with it.
-/

namespace Lockstep

namespace Ledger

/-! ## Histories -/

/-- The numbers of the operations that have started. -/
def started (history : List LedgerEvent) : List Nat := (starts history).map (·.sequence)

/-- The numbers of the operations that have completed or failed. -/
def ended (history : List LedgerEvent) : List Nat :=
  (completed history ++ failed history).map (·.sequence)

/-- Histories in which each operation starts once and afterwards completes or
fails at most once.  The clock may show anything. -/
inductive Regular : List LedgerEvent → Prop
  | nil : Regular []
  | started {history : List LedgerEvent} (h : Regular history) (sequence : Nat)
      (new : sequence ∉ started history) (time : Int) :
        Regular (history ++ [.started sequence time])
  | completed {history : List LedgerEvent} (h : Regular history) (sequence : Nat)
      (begun : sequence ∈ Ledger.started history) (running : sequence ∉ ended history)
      (time : Int) :
      Regular (history ++ [.completed sequence time])
  | failed {history : List LedgerEvent} (h : Regular history) (sequence : Nat)
      (begun : sequence ∈ Ledger.started history) (running : sequence ∉ ended history)
      (time : Int) :
      Regular (history ++ [.failed sequence time])

/-- The numbers of the operations whose end is in a log. -/
def onRecord (l : Ledger) : List Nat := (l.completions ++ l.failures).map (·.sequence)

/-- Whether the record of the end of an operation has been dropped. -/
def Pruned (history : List LedgerEvent) (l : Ledger) (sequence : Nat) : Prop :=
  sequence ∈ ended history ∧ sequence ∉ l.onRecord

instance (history : List LedgerEvent) (l : Ledger) (sequence : Nat) :
    Decidable (Pruned history l sequence) :=
  inferInstanceAs (Decidable (_ ∧ _))

section Concat

variable (history : List LedgerEvent) (sequence : Nat) (time : Int)

theorem started_started :
    started (history ++ [.started sequence time]) = started history ++ [sequence] := by
  unfold started
  rw [starts_concat, List.map_append]
  rfl

theorem starts_ended {event : LedgerEvent} (h : event.start? = none) :
    starts (history ++ [event]) = starts history := by
  rw [starts_concat, h]
  exact List.append_nil _

theorem started_ended {event : LedgerEvent} (h : event.start? = none) :
    started (history ++ [event]) = started history :=
  congrArg (List.map LedgerRecord.sequence) (starts_ended history h)

theorem ended_started :
    ended (history ++ [.started sequence time]) = ended history := by
  unfold ended
  rw [completed_concat, failed_concat]
  rfl

theorem ended_completed :
    ended (history ++ [.completed sequence time]) = sequence :: ended history := by
  unfold ended
  rw [completed_concat, failed_concat]
  rfl

theorem perm_ended_failed :
    (ended (history ++ [.failed sequence time])).Perm (sequence :: ended history) := by
  unfold ended
  rw [completed_concat, failed_concat]
  exact List.perm_middle.map _

end Concat

variable {history : List LedgerEvent} {l : Ledger} {sequence : Nat} {time : Int}

namespace Regular

theorem nodup_started (h : Regular history) : (Ledger.started history).Nodup := by
  induction h with
  | nil => exact .nil
  | started _ _ new time ih =>
    rw [started_started, ← List.concat_eq_append]
    exact ih.concat new
  | completed _ _ _ _ time ih | failed _ _ _ _ time ih =>
    rw [started_ended _ rfl]
    exact ih

theorem nodup_ended (h : Regular history) : (ended history).Nodup := by
  induction h with
  | nil => exact .nil
  | started _ _ _ time ih =>
    rw [ended_started]
    exact ih
  | completed _ _ _ running time ih =>
    rw [ended_completed]
    exact ih.cons running
  | failed _ _ _ running time ih =>
    exact (perm_ended_failed ..).nodup_iff.mpr (ih.cons running)

theorem ended_subset (h : Regular history) :
    ended history ⊆ Ledger.started history := by
  induction h with
  | nil => exact List.Subset.refl _
  | started _ _ _ time ih =>
    rw [ended_started, started_started]
    exact List.subset_append_of_subset_left _ ih
  | completed _ _ begun _ time ih =>
    rw [ended_completed, started_ended _ rfl]
    exact List.cons_subset.mpr ⟨begun, ih⟩
  | failed _ _ begun _ time ih =>
    rw [started_ended _ rfl]
    exact List.Subset.trans (perm_ended_failed ..).subset
      (List.cons_subset.mpr ⟨begun, ih⟩)

end Regular

theorem Logs.onRecord_sublist (h : Logs history l) :
    l.onRecord.Sublist (ended history) :=
  (h.completions.sublist.append h.failures.sublist).map _

/-! ## Pruning -/

/-- The numbers of the operations whose records a pruning drops. -/
def dropped (l : Ledger) (cutoff : Int) : List Nat :=
  (expired cutoff l.completions ++ expired cutoff l.failures).map (·.sequence)

theorem getElem?_forget (times : Times) (records : List LedgerRecord) (sequence : Nat) :
    (forget times records)[sequence]? =
      if sequence ∈ records.map (·.sequence) then none else times[sequence]? := by
  induction records generalizing times with
  | nil => rfl
  | cons r records ih =>
    refine (ih (times.erase r.sequence)).trans ?_
    rw [Std.HashMap.getElem?_erase]
    by_cases hr : r.sequence = sequence
    · simp [hr]
    · simp [hr, Ne.symm hr]

theorem startTimes_prune (l : Ledger) (cutoff : Int) :
    (l.prune cutoff).startTimes =
      forget l.startTimes (expired cutoff l.completions ++ expired cutoff l.failures) :=
  List.foldl_append.symm

theorem perm_unexpired (cutoff : Int) (records : List LedgerRecord) :
    records.Perm (unexpired cutoff records ++ expired cutoff records) := by
  refine .trans (.of_eq (unexpired_append_expired cutoff records).symm) ?_
  exact (List.reverse_perm _).append_left _

/-- Records are kept or dropped. -/
theorem perm_onRecord_prune (l : Ledger) (cutoff : Int) :
    l.onRecord.Perm ((l.prune cutoff).onRecord ++ l.dropped cutoff) := by
  have hcompletions := perm_unexpired cutoff l.completions
  have hfailures := perm_unexpired cutoff l.failures
  unfold onRecord dropped
  rw [← List.map_append]
  refine ((hcompletions.append hfailures).trans ?_).map _
  rw [List.append_assoc, List.append_assoc]
  refine List.Perm.append_left _ ?_
  rw [← List.append_assoc, ← List.append_assoc]
  exact List.perm_append_comm.append_right _

/-- If no number is on record twice, then those that stay are those that
are not dropped. -/
theorem mem_onRecord_prune (distinct : l.onRecord.Nodup) (cutoff : Int)
    (sequence : Nat) :
    sequence ∈ (l.prune cutoff).onRecord ↔
      sequence ∈ l.onRecord ∧ sequence ∉ l.dropped cutoff := by
  have hperm := l.perm_onRecord_prune cutoff
  obtain ⟨-, -, hapart⟩ := List.nodup_append.mp (hperm.nodup_iff.mp distinct)
  rw [hperm.mem_iff, List.mem_append]
  refine ⟨fun h => ⟨.inl h, fun hdropped => hapart _ h _ hdropped rfl⟩, ?_⟩
  rintro ⟨hkept | hdropped, hnot⟩
  · exact hkept
  · exact absurd hdropped hnot

theorem mem_unexpired_iff {records : List LedgerRecord}
    (distinct : (records.map (·.sequence)).Nodup) {cutoff : Int} {r : LedgerRecord} :
    r ∈ unexpired cutoff records ↔
      r ∈ records ∧ r.sequence ∉ (expired cutoff records).map (·.sequence) := by
  have hperm := perm_unexpired cutoff records
  have hmapped := (hperm.map (·.sequence)).nodup_iff.mp distinct
  rw [List.map_append] at hmapped
  obtain ⟨-, -, hapart⟩ := List.nodup_append.mp hmapped
  rw [hperm.mem_iff, List.mem_append]
  refine ⟨fun h =>
    ⟨.inl h, fun hdropped => hapart _ (List.mem_map_of_mem h) _ hdropped rfl⟩, ?_⟩
  rintro ⟨hkept | hdropped, hnot⟩
  · exact hkept
  · exact absurd (List.mem_map_of_mem hdropped) hnot

/-- An end that is put on record is not pruned, and changes nothing for the others. -/
theorem pruned_iff_of_noted {history' : List LedgerEvent} {l' : Ledger}
    (ends : (ended history').Perm (sequence :: ended history))
    (record : l'.onRecord.Perm (sequence :: l.onRecord))
    (running : sequence ∉ ended history) (other : Nat) :
    Pruned history' l' other ↔ Pruned history l other := by
  unfold Pruned
  rw [ends.mem_iff, record.mem_iff, List.mem_cons, List.mem_cons]
  by_cases hsame : other = sequence
  · subst hsame
    simp [running]
  · simp [hsame]

/-! ## Tables and logs -/

/-- The tables of times agree with the history and the logs. -/
structure Timed (history : List LedgerEvent) (l : Ledger) : Prop where
  finish : ∀ sequence time,
    l.finishTimes[sequence]? = some time ↔ ⟨sequence, time⟩ ∈ l.completions
  start : ∀ sequence time,
    l.startTimes[sequence]? = some time ↔
      ⟨sequence, time⟩ ∈ starts history ∧ ¬ Pruned history l sequence

namespace Timed

/-- Pruning keeps the tables in agreement with the logs. -/
theorem prune (h : Timed history l) (regular : Regular history) (logs : Logs history l)
    (cutoff : Int) : Timed history (l.prune cutoff) := by
  have hdistinct : l.onRecord.Nodup := regular.nodup_ended.sublist logs.onRecord_sublist
  have hcompletions : (l.completions.map (·.sequence)).Nodup := by
    unfold onRecord at hdistinct
    rw [List.map_append] at hdistinct
    exact hdistinct.of_append_left
  refine ⟨fun sequence time => ?_, fun sequence time => ?_⟩
  · have hfinish := h.finish sequence time
    refine Iff.trans ?_ (mem_unexpired_iff hcompletions).symm
    rw [← hfinish]
    change (forget l.finishTimes (expired cutoff l.completions))[sequence]? =
      some time ↔ _
    rw [getElem?_forget]
    split
    · rename_i hdropped
      simp [hdropped]
    · rename_i hkept
      simp [hkept]
  · have hstart := h.start sequence time
    have hended : sequence ∈ l.onRecord → sequence ∈ ended history :=
      fun hmem => logs.onRecord_sublist.subset hmem
    have hdropped : sequence ∈ l.dropped cutoff → sequence ∈ l.onRecord :=
      fun hmem => (l.perm_onRecord_prune cutoff).mem_iff.mpr
        (List.mem_append_right _ hmem)
    have hkept := mem_onRecord_prune hdistinct cutoff sequence
    rw [startTimes_prune, getElem?_forget]
    change (if sequence ∈ l.dropped cutoff then none else _) = _ ↔ _
    unfold Pruned at hstart ⊢
    rw [hkept]
    split
    · rename_i hgone
      have hrecorded := hdropped hgone
      simp [hgone, hended hrecorded]
    · rename_i hstays
      rw [hstart]
      simp [hstays]

theorem pruneAt (h : Timed history l) (regular : Regular history)
    (logs : Logs history l) (now : Int) : Timed history (l.pruneAt now).1 := by
  rcases l.pruneAt_cases now with hsame | hpruned
  · rw [hsame]
    exact h
  · rw [hpruned]
    exact h.prune regular logs _

/-- A start adds its time. -/
theorem recordStart (h : Timed history l) (regular : Regular history)
    (new : sequence ∉ Ledger.started history) (time : Int) :
    Timed (history ++ [.started sequence time]) (l.recordStart time sequence) := by
  refine ⟨h.finish, fun other t => ?_⟩
  have hstart := h.start other t
  unfold Pruned at hstart ⊢
  rw [ended_started, starts_concat]
  change (l.startTimes.insert sequence time)[other]? = some t ↔
    _ ∧ ¬ (_ ∧ other ∉ l.onRecord)
  rw [Std.HashMap.getElem?_insert]
  by_cases hsame : sequence = other
  · subst hsame
    have hrunning : sequence ∉ ended history :=
      fun hmem => new (regular.ended_subset hmem)
    have hunknown : ⟨sequence, t⟩ ∉ starts history :=
      fun hmem => new (List.mem_map_of_mem hmem)
    simp [hrunning, hunknown, LedgerEvent.start?, eq_comm]
  · simp [hsame, Ne.symm hsame, hstart, LedgerEvent.start?]

/-- A completion adds its record and its time. -/
theorem noted_completed (h : Timed history l) (logs : Logs history l)
    (running : sequence ∉ ended history) (time : Int) :
    Timed (history ++ [.completed sequence time]) { l with
      finishTimes := l.finishTimes.insert sequence time
      completions := ⟨sequence, time⟩ :: l.completions } := by
  refine ⟨fun other t => ?_, fun other t => ?_⟩
  · have hfinish := h.finish other t
    rw [Std.HashMap.getElem?_insert]
    by_cases hsame : sequence = other
    · subst hsame
      have hunknown : ⟨sequence, t⟩ ∉ l.completions := fun hmem =>
        running (logs.onRecord_sublist.subset
          (List.mem_map_of_mem (List.mem_append_left l.failures hmem)))
      simp [hunknown, eq_comm]
    · simp [hsame, Ne.symm hsame, hfinish]
  · rw [starts_ended _ rfl,
      pruned_iff_of_noted (.of_eq (ended_completed ..)) .rfl running]
    exact h.start other t

/-- A failure adds its record only. -/
theorem noted_failed (h : Timed history l) (running : sequence ∉ ended history) (time : Int) :
    Timed (history ++ [.failed sequence time])
      { l with failures := ⟨sequence, time⟩ :: l.failures } := by
  refine ⟨h.finish, fun other t => ?_⟩
  have hrecord :
    ({ l with failures := ⟨sequence, time⟩ :: l.failures } : Ledger).onRecord.Perm
      (sequence :: l.onRecord) := List.perm_middle.map _
  rw [starts_ended _ rfl, pruned_iff_of_noted (perm_ended_failed ..) hrecord running]
  exact h.start other t

/-- In a regular history the tables and the logs agree at every moment. -/
theorem recordAll (retention : Int) (regular : Regular history) :
    Timed history ((ofRetention retention).recordAll history) := by
  induction regular with
  | nil =>
    refine ⟨fun _ _ => ?_, fun _ _ => ?_⟩
    · exact iff_of_false (by simp [ofRetention, Ledger.recordAll]) List.not_mem_nil
    · exact iff_of_false (by simp [ofRetention, Ledger.recordAll]) fun h =>
        List.not_mem_nil h.1
  | @started history h sequence new time ih =>
    rw [recordAll_concat]
    exact ih.recordStart h new time
  | @completed history h sequence begun running time ih =>
    have hlogs := logs_recordAll retention history
    have hnoted := hlogs.noted (.completed sequence time)
    rw [recordAll_concat]
    exact (ih.noted_completed hlogs running time).pruneAt
      (.completed h sequence begun running time)
      ⟨hnoted.completions, hnoted.failures⟩ time
  | @failed history h sequence begun running time ih =>
    have hnoted := (logs_recordAll retention history).noted (.failed sequence time)
    rw [recordAll_concat]
    exact (ih.noted_failed running time).pruneAt (.failed h sequence begun running time)
      ⟨hnoted.completions, hnoted.failures⟩ time

/-- The finish times are those of the completions in the log. -/
theorem mem_finishTimes_iff (h : Timed history l) (sequence : Nat) :
    sequence ∈ l.finishTimes ↔ sequence ∈ l.completions.map (·.sequence) := by
  rw [Std.HashMap.mem_iff_isSome_getElem?, Option.isSome_iff_exists, List.mem_map]
  constructor
  · rintro ⟨time, htime⟩
    exact ⟨_, (h.finish sequence time).mp htime, rfl⟩
  · rintro ⟨r, hr, rfl⟩
    exact ⟨r.time, (h.finish r.sequence r.time).mpr hr⟩

/-- The start times are those of the operations that have started, up to the
pruning of their ends. -/
theorem mem_startTimes_iff (h : Timed history l) (sequence : Nat) :
    sequence ∈ l.startTimes ↔
      sequence ∈ Ledger.started history ∧ ¬ Pruned history l sequence := by
  rw [Std.HashMap.mem_iff_isSome_getElem?, Option.isSome_iff_exists]
  unfold Ledger.started
  rw [List.mem_map]
  constructor
  · rintro ⟨time, htime⟩
    obtain ⟨hstart, hkept⟩ := (h.start sequence time).mp htime
    exact ⟨⟨_, hstart, rfl⟩, hkept⟩
  · rintro ⟨⟨r, hr, rfl⟩, hkept⟩
    exact ⟨r.time, (h.start r.sequence r.time).mpr ⟨hr, hkept⟩⟩

/-- What is timed at its end was timed at its start. -/
theorem finishTimes_subset (h : Timed history l) (regular : Regular history)
    (logs : Logs history l) (sequence : Nat) (timed : sequence ∈ l.finishTimes) :
    sequence ∈ l.startTimes := by
  have hrecorded : sequence ∈ l.onRecord := by
    unfold onRecord
    rw [List.map_append]
    exact List.mem_append_left _ ((h.mem_finishTimes_iff sequence).mp timed)
  have hended := logs.onRecord_sublist.subset hrecorded
  exact (h.mem_startTimes_iff sequence).mpr
    ⟨regular.ended_subset hended, fun hpruned => hpruned.2 hrecorded⟩

/-- Only a start is timed while an operation runs, or after it has failed. -/
theorem mem_startTimes_only_iff (h : Timed history l) (regular : Regular history)
    (logs : Logs history l) (sequence : Nat) :
    sequence ∈ l.startTimes ∧ sequence ∉ l.finishTimes ↔
      sequence ∈ Ledger.started history ∧
      (sequence ∉ ended history ∨ sequence ∈ l.failures.map (·.sequence)) := by
  have hended : sequence ∈ l.onRecord → sequence ∈ ended history :=
    fun hmem => logs.onRecord_sublist.subset hmem
  have hdistinct : l.onRecord.Nodup := regular.nodup_ended.sublist logs.onRecord_sublist
  rw [h.mem_startTimes_iff, h.mem_finishTimes_iff]
  unfold Pruned
  unfold onRecord at hended hdistinct ⊢
  rw [List.map_append] at hended hdistinct ⊢
  rw [List.mem_append] at hended ⊢
  obtain ⟨-, -, hapart⟩ := List.nodup_append.mp hdistinct
  constructor
  · rintro ⟨⟨hstarted, hkept⟩, huncompleted⟩
    refine ⟨hstarted, ?_⟩
    by_cases hfailed : sequence ∈ l.failures.map (·.sequence)
    · exact .inr hfailed
    · refine .inl fun hmem => hkept ⟨hmem, ?_⟩
      rintro (hcompleted | hfailed')
      · exact huncompleted hcompleted
      · exact hfailed hfailed'
  · rintro ⟨hstarted, hrunning | hfailed⟩
    · exact ⟨⟨hstarted, fun hpruned => hrunning hpruned.1⟩,
        fun hcompleted => hrunning (hended (.inl hcompleted))⟩
    · exact ⟨⟨hstarted, fun hpruned => hpruned.2 (.inr hfailed)⟩,
        fun hcompleted => hapart _ hcompleted _ hfailed rfl⟩

end Timed

/-! ## How long operations took -/

theorem operationTime_eq_ok_iff {d : Int} :
    l.operationTime sequence = .ok d ↔ ∃ start finish,
      l.startTimes[sequence]? = some start ∧
      l.finishTimes[sequence]? = some finish ∧ d = finish - start := by
  unfold operationTime
  cases l.startTimes[sequence]? with
  | none => simp
  | some start =>
    cases l.finishTimes[sequence]? with
    | none => simp
    | some finish => simp [eq_comm]

theorem exists_operationTime_iff :
    (∃ d, l.operationTime sequence = .ok d) ↔
      sequence ∈ l.startTimes ∧ sequence ∈ l.finishTimes := by
  unfold operationTime
  rw [Std.HashMap.mem_iff_isSome_getElem?, Std.HashMap.mem_iff_isSome_getElem?]
  cases l.startTimes[sequence]? <;> cases l.finishTimes[sequence]? <;> simp

theorem operationTime_eq_noFinishTime_iff :
    l.operationTime sequence = .error (.noFinishTime sequence) ↔
      sequence ∈ l.startTimes ∧ sequence ∉ l.finishTimes := by
  unfold operationTime
  rw [Std.HashMap.mem_iff_isSome_getElem?, Std.HashMap.mem_iff_isSome_getElem?]
  cases l.startTimes[sequence]? <;> cases l.finishTimes[sequence]? <;> simp

theorem operationTime_eq_noStartTime_iff :
    l.operationTime sequence = .error (.noStartTime sequence) ↔
      sequence ∉ l.startTimes := by
  unfold operationTime
  rw [Std.HashMap.mem_iff_isSome_getElem?]
  cases l.startTimes[sequence]? <;> cases l.finishTimes[sequence]? <;> simp

/-- A time that is told is the reading at the end less the reading at the start. -/
theorem Timed.operationTime_eq_ok_iff (h : Timed history l) (regular : Regular history)
    (logs : Logs history l) {d : Int} :
    l.operationTime sequence = .ok d ↔ ∃ start finish,
      .started sequence start ∈ history ∧
      ⟨sequence, finish⟩ ∈ l.completions ∧ d = finish - start := by
  rw [Ledger.operationTime_eq_ok_iff]
  constructor
  · rintro ⟨start, finish, hstart, hfinish, rfl⟩
    exact ⟨start, finish, mem_starts_iff.mp ((h.start sequence start).mp hstart).1,
      (h.finish sequence finish).mp hfinish, rfl⟩
  · rintro ⟨start, finish, hstart, hfinish, rfl⟩
    have htimed := (h.mem_finishTimes_iff sequence).mpr (List.mem_map_of_mem hfinish)
    have hbegun := h.finishTimes_subset regular logs sequence htimed
    have hkept := ((h.mem_startTimes_iff sequence).mp hbegun).2
    exact ⟨start, finish,
      (h.start sequence start).mpr ⟨mem_starts_iff.mpr hstart, hkept⟩,
      (h.finish sequence finish).mpr hfinish, rfl⟩

/-- Noted in a regular history, under any retention and whatever the clock
shows, the logs hold the newest completions and failures.  The finish times are
those of the completions in the log, each once.  The start times are those of
the operations that have started, without those whose end was pruned, so an
operation that has not ended never loses its start time.  Hence the time of an
operation is told exactly if its completion is in the log, as the reading at its
end less the reading at its start; the finish time is missed exactly if the
operation has started and has not ended, or has failed and the failure is in the
log; and in every other case the start time is missed. -/
theorem operationTime_exact (retention : Int) {history : List LedgerEvent}
    (regular : Regular history) :
    let l := (ofRetention retention).recordAll history
    let timed (sequence : Nat) := sequence ∈ l.completions.map (·.sequence)
    let lacksFinish (sequence : Nat) := sequence ∈ started history ∧
      (sequence ∉ ended history ∨ sequence ∈ l.failures.map (·.sequence))
    l.completions <+: completed history ∧ l.failures <+: failed history ∧
      l.finishTimes.keys.Nodup ∧
      l.finishTimes.keys.Perm (l.completions.map (·.sequence)) ∧
      l.startTimes.keys.Perm ((started history).filter fun s => ¬ Pruned history l s) ∧
      ∀ sequence,
        ((∃ d, l.operationTime sequence = .ok d) ↔ timed sequence) ∧
        (∀ d, l.operationTime sequence = .ok d ↔ ∃ start finish,
          .started sequence start ∈ history ∧
          ⟨sequence, finish⟩ ∈ l.completions ∧ d = finish - start) ∧
        (l.operationTime sequence = .error (.noFinishTime sequence) ↔
          lacksFinish sequence) ∧
        (l.operationTime sequence = .error (.noStartTime sequence) ↔
          ¬ timed sequence ∧ ¬ lacksFinish sequence) := by
  intro l timed lacksFinish
  have hlogs := logs_recordAll retention history
  have htimed := Timed.recordAll retention regular
  have hdistinct : (l.completions.map (·.sequence)).Nodup :=
    regular.nodup_ended.sublist
      (((List.sublist_append_left _ _).map _).trans hlogs.onRecord_sublist)
  refine ⟨hlogs.completions, hlogs.failures, Std.HashMap.nodup_keys, ?_, ?_, fun s => ?_⟩
  · refine (List.perm_ext_iff_of_nodup Std.HashMap.nodup_keys hdistinct).mpr fun s => ?_
    rw [Std.HashMap.mem_keys]
    exact htimed.mem_finishTimes_iff s
  · refine (List.perm_ext_iff_of_nodup Std.HashMap.nodup_keys
      (regular.nodup_started.filter _)).mpr fun s => ?_
    rw [Std.HashMap.mem_keys, List.mem_filter, decide_eq_true_iff]
    exact htimed.mem_startTimes_iff s
  · have hfinish : s ∈ l.finishTimes ↔ timed s := htimed.mem_finishTimes_iff s
    have honly : s ∈ l.startTimes ∧ s ∉ l.finishTimes ↔ lacksFinish s :=
      htimed.mem_startTimes_only_iff regular hlogs s
    have hbegun : s ∈ l.finishTimes → s ∈ l.startTimes :=
      htimed.finishTimes_subset regular hlogs s
    refine ⟨?_, fun d => htimed.operationTime_eq_ok_iff regular hlogs, ?_, ?_⟩
    · rw [exists_operationTime_iff, ← hfinish]
      exact and_iff_right_of_imp hbegun
    · exact operationTime_eq_noFinishTime_iff.trans honly
    · rw [operationTime_eq_noStartTime_iff, ← hfinish, ← honly]
      refine ⟨fun hunknown => ⟨fun h => hunknown (hbegun h), fun h => hunknown h.1⟩, ?_⟩
      rintro ⟨huntimed, hnone⟩ hstart
      exact hnone ⟨hstart, huntimed⟩

/-- A history whose clock goes forward far enough for a completion and a failure
to be pruned, and then back. -/
def prunedHistory : List LedgerEvent :=
  [.started 1 0, .started 2 0, .started 3 0, .started 4 0, .completed 1 0, .failed 2 0,
    .completed 3 11, .started 5 11, .completed 5 5]

/-- Of five operations two are forgotten, one runs, and two are timed, one of
them against the clock. -/
theorem operationTime_exact_pruned :
    Regular prunedHistory ∧
      let l := (ofRetention 10).recordAll prunedHistory
      l.operationTime 1 = .error (.noStartTime 1) ∧
        l.operationTime 2 = .error (.noStartTime 2) ∧
        l.operationTime 3 = .ok 11 ∧ l.operationTime 4 = .error (.noFinishTime 4) ∧
        l.operationTime 5 = .ok (-6) := by
  have hstarts : Regular [.started 1 0, .started 2 0, .started 3 0, .started 4 0] :=
    (((Regular.nil.started 1 (by decide) 0).started 2 (by decide) 0).started 3
      (by decide) 0).started
      4 (by decide) 0
  have hregular : Regular prunedHistory :=
    ((((hstarts.completed 1 (by decide) (by decide) 0).failed 2 (by decide)
      (by decide) 0).completed
      3 (by decide) (by decide) 11).started 5 (by
        decide) 11).completed 5 (by decide) (by decide) 5
  obtain ⟨-, -, -, -, -, hexact⟩ := operationTime_exact 10 hregular
  refine ⟨hregular, (hexact 1).2.2.2.mpr (by decide), (hexact 2).2.2.2.mpr (by decide),
    ((hexact 3).2.1 11).mpr ⟨0, 11, by decide, by decide, by decide⟩,
    (hexact 4).2.2.1.mpr (by decide),
      ((hexact 5).2.1 (-6)).mpr ⟨11, 5, by decide, by decide, by decide⟩⟩

end Ledger

end Lockstep
