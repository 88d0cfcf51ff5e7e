import Lockstep.Proofs.Ledger.History
import Mathlib.Data.List.TakeWhile
set_option autoImplicit false

/-!
# Counting completions in a window of time

Completions in a window are counted from the newest record on, up to the first
that lies before the window.  The log is in the order in which completions were
noted, which is the order of their times only as long as the clock goes forward.
If it was set back, a record with an early time may stand in front of records
that lie in the window, and these are not counted.
-/

namespace Lockstep

namespace Ledger

/-- Whether a completion lies in the window that ends at an instant. -/
def InWindow (window now : Int) (r : LedgerRecord) : Prop :=
  now - window ≤ r.time ∧ r.time ≤ now

instance (window now : Int) (r : LedgerRecord) : Decidable (InWindow window now r) :=
  inferInstanceAs (Decidable (_ ∧ _))

/-- How many completions in the log lie in the window, wherever they stand. -/
def countInWindow (l : Ledger) (window now : Int) : Nat :=
  l.completions.countP (InWindow window now ·)

/-- The scan counts what lies in the window among the records that it reads. -/
theorem length_scan (window now : Int) (records : List LedgerRecord) :
    ((records.takeWhile fun r => now - window ≤ r.time).filter fun r =>
      r.time ≤ now).length =
      (records.takeWhile fun r => now - window ≤ r.time).countP
        (InWindow window now ·) := by
  rw [← List.countP_eq_length_filter]
  refine List.countP_congr fun r hr => ?_
  have hrecent : now - window ≤ r.time := by simpa using List.mem_takeWhile_imp hr
  simp [InWindow, hrecent]

/-- Nothing in the window is left unread exactly if no record of the window
stands behind one that lies before it. -/
theorem forall_dropWhile_iff (window now : Int) (records : List LedgerRecord) :
    (∀ r ∈ records.dropWhile fun r => now - window ≤ r.time, ¬ InWindow window now r) ↔
      records.Pairwise fun newer older => newer.time < now - window →
      ¬ InWindow window now older := by
  induction records with
  | nil => exact iff_of_true (List.forall_mem_nil _) .nil
  | cons first rest ih =>
    rw [List.pairwise_cons]
    by_cases hrecent : now - window ≤ first.time
    · rw [List.dropWhile_cons_of_pos (by simpa using hrecent), ih]
      exact (and_iff_right fun _ _ hearly =>
        absurd hrecent (Int.not_le.mpr hearly)).symm
    · rw [List.dropWhile_cons_of_neg (by simpa using hrecent), List.forall_mem_cons]
      constructor
      · rintro ⟨-, hrest⟩
        exact ⟨fun older holder _ => hrest older holder,
          List.pairwise_of_forall_mem_list fun _ _ older holder _ => hrest older holder⟩
      · rintro ⟨hrest, -⟩
        exact ⟨fun hfirst => hrecent hfirst.1,
          fun older holder => hrest older holder (Int.not_le.mp hrecent)⟩

/-- What the scan counts and what it leaves out make up the window. -/
theorem countInWindow_split (l : Ledger) (window now : Int) :
    (l.completions.takeWhile fun r => now - window ≤ r.time).countP
      (InWindow window now ·) +
        (l.completions.dropWhile fun r => now - window ≤ r.time).countP
          (InWindow window now ·) =
      l.countInWindow window now := by
  rw [← List.countP_append, List.takeWhile_append_dropWhile]
  rfl

/-- The records of a log go back in time if the clock went forward from one
completion to the next. -/
theorem Logs.pairwise_time {history : List LedgerEvent} {l : Ledger}
    (h : Logs history l)
    (forward : (completed history).Pairwise fun newer older => older.time ≤ newer.time) :
    l.completions.Pairwise fun newer older => older.time ≤ newer.time :=
  forward.sublist h.completions.sublist

/-- Whatever is noted, under any retention and whatever the clock shows, the
count of a window that does not start before the calendar is at most the
number of completions in the log that lie in the window.  It is that number
exactly if no completion of the window was noted before one in the log that
lies before the window; otherwise only those count that were noted after the
last such one.  So it is exact whenever the clock went forward, or stood, from
each completion to the next. -/
theorem completedWithin_eq_iff (retention : Int) (history : List LedgerEvent)
    {window now : Int} (told : (Calendar.instant? (now - window)).isSome = true) :
    let l := (ofRetention retention).recordAll history
    ∃ count, l.completedWithin window now = .ok count ∧
      count ≤ l.countInWindow window now ∧
      (count = l.countInWindow window now ↔ l.completions.Pairwise fun newer older =>
        newer.time < now - window → ¬ InWindow window now older) ∧
      (∀ newer early older, l.completions = newer ++ early :: older →
        (∀ r ∈ newer, now - window ≤ r.time) → early.time < now - window →
          count = newer.countP (InWindow window now ·)) ∧
      ((completed history).Pairwise (fun newer older => older.time ≤ newer.time) →
        count = l.countInWindow window now) := by
  intro l
  have hsplit := l.countInWindow_split window now
  have hexact : (l.completions.takeWhile fun r => now - window ≤ r.time).countP
    (InWindow window now ·) =
      l.countInWindow window now ↔ l.completions.Pairwise fun newer older =>
        newer.time < now - window → ¬ InWindow window now older := by
    rw [← forall_dropWhile_iff, ← hsplit, eq_comm, Nat.add_eq_left, List.countP_eq_zero]
    simp only [decide_eq_true_eq]
  refine ⟨_, ?_, Nat.le.intro hsplit, hexact, ?_, ?_⟩
  · unfold completedWithin
    rw [← length_scan]
    unfold Calendar.instant? at told ⊢
    split at told
    · rename_i htold
      rw [if_pos htold]
    · cases told
  · intro newer early older hlog hnewer hearly
    have hstops : (early :: older).takeWhile (fun r => now - window ≤ r.time) = [] :=
      List.takeWhile_cons_of_neg
        (by simpa only [decide_eq_true_eq, Int.not_le] using hearly)
    rw [hlog, List.takeWhile_append_of_pos (by simpa using hnewer), hstops,
      List.append_nil]
  · intro hforward
    refine hexact.mpr
      (((logs_recordAll retention history).pairwise_time hforward).imp ?_)
    intro newer older hback hearly hin
    have hrecent := hin.1
    omega

/-- Of three completions the last lies in the window of a second, which is
what is counted. -/
theorem completedWithin_eq_iff_second :
    let l := (ofRetention 3600000).recordAll
      [.completed 0 0, .completed 1 400, .completed 2 1600]
    (Calendar.instant? (2000 - 1000)).isSome = true ∧ l.completedWithin 1000 2000 = .ok 1 := by
  have htold : (Calendar.instant? (2000 - 1000)).isSome = true := by decide
  obtain ⟨count, hcount, -, -, -, hforward⟩ := completedWithin_eq_iff 3600000
    [.completed 0 0, .completed 1 400, .completed 2 1600] htold
  rw [hforward (by decide)] at hcount
  exact ⟨htold, hcount⟩

/-- A completion that is noted after the clock was set back hides one that
lies in the window. -/
theorem completedWithin_misses_hidden :
    let l := (ofRetention 3600000).recordAll [.completed 1 0, .completed 2 (-5000)]
    l.completedWithin 1000 0 = .ok 0 ∧ l.countInWindow 1000 0 = 1 :=
  ⟨rfl, rfl⟩

end Ledger

end Lockstep
