import Lockstep.Proofs.Batch.Round
import Lockstep.Scheduler
set_option autoImplicit false

/-!
# An advance keeps its batch on course

Whatever an advance delivers is truthful, and unless it crashes the members that
stay are on course.  When a crash is caught the batch is failed, so in the end
every member is on course or delivered.
-/

namespace Lockstep

variable {ex : Expectation} {id : CursorId} {s : Scans}

/-- An advance that has kept its promises. -/
structure Advance.Kept (ex : Expectation) (id : CursorId) (s : Scans) (a : Advance) :
    Prop where
  moves : Scans.OnlyMoves id s a.scans
  members : (∀ crash, a.ending ≠ .crashed crash) →
    Batch.InStep ex id a.scans a.batch.members
  truthful : Batch.AllTruthful ex id a.batch.members
  deliveries : ∀ d ∈ a.deliveries, d.Truthful ex

@[simp] theorem Advance.ending_after_eq_crashed {a : Advance} {completedAny : Bool}
    {earlier : List Delivery} {crash : Crash} :
    (a.after completedAny earlier).ending = .crashed crash ↔
      a.ending = .crashed crash := by
  unfold Advance.after AdvanceEnd.after
  cases a.ending <;> simp

namespace Batch

theorem deliver_cases (receiver : Receiver) (deliveries : List Delivery) :
    deliver receiver deliveries = (deliveries, none) ∨
      ∃ crash, ∃ first ∈ deliveries,
        deliver receiver deliveries = ([first], some crash) := by
  unfold deliver
  split
  · exact .inr ⟨_, _, List.mem_cons_self, rfl⟩
  · exact .inl rfl

theorem failAll_eq (receiver : Receiver) (b : Batch) (reason : Failure) (s : Scans) :
    failAll receiver b reason s =
        ⟨.failed b.members.length reason, { b with members := [] }, s,
          failures reason b.members⟩ ∨
      ∃ crash, ∃ first ∈ failures reason b.members,
        failAll receiver b reason s =
          ⟨.crashed crash, { b with members := [] }, s, [first]⟩ := by
  unfold failAll
  rcases deliver_cases receiver (failures reason b.members)
    with hall | ⟨crash, first, hfirst, hcrash⟩
  · rw [hall]
    exact .inl rfl
  · rw [hcrash]
    exact .inr ⟨crash, first, hfirst, rfl⟩

theorem batch_failAll (receiver : Receiver) (b : Batch) (reason : Failure) (s : Scans) :
    (failAll receiver b reason s).batch = { b with members := [] } := by
  rcases failAll_eq receiver b reason s with hall | ⟨crash, first, -, hcrash⟩
  · rw [hall]
  · rw [hcrash]

/-- A receiver takes no delivery that was not made. -/
theorem mem_of_mem_deliver {receiver : Receiver} {deliveries : List Delivery}
    {d : Delivery} (h : d ∈ (deliver receiver deliveries).1) : d ∈ deliveries := by
  rcases deliver_cases receiver deliveries with hall | ⟨crash, first, hfirst, hcrash⟩
  · rwa [hall] at h
  · rw [hcrash] at h
    rwa [List.mem_singleton.mp h]

theorem mem_of_mem_failAll {receiver : Receiver} {b : Batch} {reason : Failure}
    {d : Delivery} (h : d ∈ (failAll receiver b reason s).deliveries) :
    d ∈ failures reason b.members := by
  rcases failAll_eq receiver b reason s with hall | ⟨crash, first, hfirst, hcrash⟩
  · rwa [hall] at h
  · rw [hcrash] at h
    rwa [List.mem_singleton.mp h]

theorem truthful_of_mem_failures {reason : Failure} {members : List Operation}
    {d : Delivery} (hmembers : AllTruthful ex id members)
    (h : d ∈ failures reason members) : d.Truthful ex := by
  obtain ⟨op, hop, rfl⟩ := List.mem_map.mp h
  have htruthful := (hmembers op hop).2
  cases hfinished : op.isFinished with
  | true => exact Delivery.truthful_completed htruthful hfinished
  | false => exact Delivery.truthful_failed htruthful _

theorem truthful_of_mem_completions {members : List Operation} {d : Delivery}
    (hmembers : AllTruthful ex id members)
    (h : d ∈ completions (members.filter Operation.isFinished)) : d.Truthful ex := by
  obtain ⟨op, hop, rfl⟩ := List.mem_map.mp h
  obtain ⟨hmem, hfinished⟩ := List.mem_filter.mp hop
  exact Delivery.truthful_completed (hmembers op hmem).2 hfinished

theorem kept_failAll (receiver : Receiver) {b : Batch} (reason : Failure)
    (hmembers : AllTruthful ex id b.members) :
    (failAll receiver b reason s).Kept ex id s := by
  have hdeliveries : ∀ d ∈ (failAll receiver b reason s).deliveries, d.Truthful ex :=
    fun d hd => truthful_of_mem_failures hmembers (mem_of_mem_failAll hd)
  rcases failAll_eq receiver b reason s with hall | ⟨crash, first, -, hcrash⟩
  · rw [hall] at hdeliveries ⊢
    exact ⟨.refl id s, fun _ => List.forall_mem_nil _, List.forall_mem_nil _, hdeliveries⟩
  · rw [hcrash] at hdeliveries ⊢
    exact ⟨.refl id s, fun _ => List.forall_mem_nil _, List.forall_mem_nil _, hdeliveries⟩

end Batch

theorem Advance.Kept.behind {s' : Scans} {a : Advance} (h : a.Kept ex id s')
    (moved : Scans.OnlyMoves id s s') {before : List Delivery}
    (hbefore : ∀ d ∈ before, d.Truthful ex) :
    { a with deliveries := before ++ a.deliveries }.Kept ex id s where
  moves := moved.trans h.moves
  members := h.members
  truthful := h.truthful
  deliveries := List.forall_mem_append.mpr ⟨hbefore, h.deliveries⟩

theorem Advance.Kept.after {s' : Scans} {a : Advance} (h : a.Kept ex id s')
    (moved : Scans.OnlyMoves id s s') (completedAny : Bool) {before : List Delivery}
    (hbefore : ∀ d ∈ before, d.Truthful ex) :
    (a.after completedAny before).Kept ex id s where
  moves := (h.behind moved hbefore).moves
  members := fun caught => h.members fun crash hcrash =>
    caught crash (Advance.ending_after_eq_crashed.mpr hcrash)
  truthful := h.truthful
  deliveries := (h.behind moved hbefore).deliveries

namespace Batch

theorem advance_of_isEmpty {receiver : Receiver} {maxRetries : UInt32} {b : Batch}
    (h : b.members = []) (rounds : Nat) (s : Scans) :
    b.advance receiver maxRetries rounds s = ⟨.ran false, b, s, []⟩ := by
  cases rounds with
  | zero => rfl
  | succ rounds =>
    rw [advance, h]
    rfl

/-- An advance keeps the members on course, unless it crashes, and
delivers truthfully. -/
theorem kept_advance (receiver : Receiver) (maxRetries : UInt32) (rounds : Nat)
    {b : Batch} (hopen : s.IsOpen id) (hmembers : InStep ex id s b.members) :
    (advance receiver maxRetries rounds b s).Kept ex id s := by
  induction rounds generalizing b s with
  | zero =>
    exact ⟨.refl id s, fun _ => hmembers, hmembers.allTruthful, List.forall_mem_nil _⟩
  | succ rounds ih =>
    rw [advance]
    split
    · exact ⟨.refl id s, fun _ => hmembers, hmembers.allTruthful, List.forall_mem_nil _⟩
    · have hround := roundResult_round hopen hmembers
      generalize round b.members s = result at hround
      cases hround with
      | @completed members s' moves kept =>
        have hleft : InStep ex id s' (members.filter fun op => !op.isFinished) :=
          fun op hop => kept op (List.mem_filter.mp hop).1
        have hdeliveries : ∀ d ∈ (deliver receiver
            (completions (members.filter Operation.isFinished))).1, d.Truthful ex :=
          fun d hd => truthful_of_mem_completions kept.allTruthful
            (mem_of_mem_deliver hd)
        dsimp only
        generalize deliver receiver
          (completions (members.filter Operation.isFinished)) = delivered
          at hdeliveries
        obtain ⟨taken, crash⟩ := delivered
        cases crash with
        | some crash => exact ⟨moves, fun _ => hleft, hleft.allTruthful, hdeliveries⟩
        | none => exact (ih (moves.isOpen hopen) hleft).after moves _ hdeliveries
      | @aborted f members s' moves kept =>
        have hcounted : ∀ ending (b' : Batch), b'.members = members →
            Advance.Kept ex id s ⟨ending, b', s', []⟩ := by
          rintro ending b' rfl
          exact ⟨moves, fun _ => kept, kept.allTruthful, List.forall_mem_nil _⟩
        dsimp only
        split
        · exact hcounted _ _ rfl
        · split
          · exact (kept_failAll receiver f kept.allTruthful).behind moves
              (List.forall_mem_nil _)
          · exact hcounted _ _ rfl
      | @lost ending members s' moves truthful given =>
        cases ending with
        | completed => exact absurd rfl given.1
        | aborted f => exact absurd rfl (given.2 f)
        | broken f =>
          exact (kept_failAll receiver f truthful).behind moves (List.forall_mem_nil _)
        | crashed crash =>
          exact ⟨moves, fun h => absurd rfl (h crash), truthful, List.forall_mem_nil _⟩

end Batch

theorem Scheduler.guardedAdvance_of_isEmpty {sch : Scheduler} {receiver : Receiver}
    {b : Batch} (h : b.members = []) :
    sch.guardedAdvance receiver b s = ⟨.ran false, b, s, []⟩ := by
  unfold guardedAdvance
  rw [Batch.advance_of_isEmpty h]

/-- An advance whose crash is caught keeps every member on course or
delivers it truthfully. -/
theorem Scheduler.kept_guardedAdvance (sch : Scheduler) (receiver : Receiver)
    {b : Batch} (hopen : s.IsOpen id) (hmembers : Batch.InStep ex id s b.members) :
    (sch.guardedAdvance receiver b s).Kept ex id s ∧
      Batch.InStep ex id (sch.guardedAdvance receiver b s).scans
        (sch.guardedAdvance receiver b s).batch.members := by
  have hkept := Batch.kept_advance receiver sch.maxRetries sch.stride hopen hmembers
  unfold guardedAdvance
  generalize b.advance receiver sch.maxRetries sch.stride s = a at hkept
  dsimp only
  cases hending : a.ending with
  | crashed crash =>
    have hfailed := Batch.kept_failAll (s := a.scans) receiver
      (crashFailure crash) hkept.truthful
    have hmembers' :
        (a.batch.failAll receiver (crashFailure crash) a.scans).batch.members = [] :=
      congrArg Batch.members (Batch.batch_failAll ..)
    refine ⟨hfailed.behind hkept.moves hkept.deliveries, ?_⟩
    dsimp only
    rw [hmembers']
    exact List.forall_mem_nil _
  | ran | aborted f | failed members f =>
    exact ⟨hkept, hkept.members (by simp [hending])⟩

end Lockstep
