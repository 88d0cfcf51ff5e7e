import Lockstep.Proofs.Scheduler.Fleet
set_option autoImplicit false

/-!
# Calls that are told what they did

`advanceIndex` tells how many rounds it ran, and adds them to the metrics.
Several workers may be inside such calls at one time.  A call falls into parts,
and those of others may come between them: it looks a batch up, takes its lock,
checks the gate and reads the count of rounds, runs one round after the other,
releases the lock, reads the count again, and removes the batch if that was left
without members.

A worker goes on with the batch that it has found, even if someone else has
removed it meanwhile.  So removed batches are kept here too.

A call that goes through all parts on its own does and tells what `advanceIndex`
does.  Without what it is told a call is a worker of a `Fleet` (`exists_fleet`).
-/

namespace Lockstep

/-- What a call has done to its batch so far. -/
structure Work where
  /-- rounds that it has completed -/
  rounds : Nat := 0
  completedAny : Bool := false
  aborted : Bool := false
  deriving DecidableEq, Repr, Inhabited

/-- The work of a call that has advanced its batch further. -/
def Work.after (w : Work) (before : Batch) (a : Advance) : Work where
  rounds := w.rounds + (a.batch.rounds - before.rounds)
  completedAny := match a.ending with
    | .ran completedAny => w.completedAny || completedAny
    | .aborted _ => false
    | _ => true
  aborted := match a.ending with
    | .aborted _ => true
    | _ => false

/-- What a call tells that finds its batch as it has left it. -/
def Work.report (w : Work) (index before : Nat) (b : Batch) : Report :=
  ⟨index, b.rounds - before, w.completedAny, b.members.isEmpty, w.aborted⟩

/-- Work that went on behind an advance that ran. -/
theorem Work.after_andThen (w : Work) {before : Batch} {first : Advance}
    {more : Batch → Scans → Advance} {completedAny : Bool}
    (ran : first.ending = .ran completedAny)
    (grown : before.rounds ≤ first.batch.rounds)
    (further : first.batch.rounds ≤ (more first.batch first.scans).batch.rounds) :
    (w.after before first).after first.batch (more first.batch first.scans) =
      w.after before (first.andThen more) := by
  rw [Advance.andThen_of_ran ran]
  unfold Advance.after Work.after
  rw [ran]
  generalize more first.batch first.scans = second at further
  have hrounds : w.rounds + (first.batch.rounds - before.rounds) +
      (second.batch.rounds - first.batch.rounds) =
      w.rounds + (second.batch.rounds - before.rounds) := by omega
  rw [hrounds]
  cases second.ending with
  | ran told =>
    dsimp only [AdvanceEnd.after]
    rw [Bool.or_assoc]
  | aborted f | failed members f | crashed crash => rfl

theorem Work.after_self {w : Work} (h : w.aborted = false) (b : Batch) (s : Scans) :
    w.after b ⟨.ran false, b, s, []⟩ = w := by
  obtain ⟨rounds, completedAny, aborted⟩ := w
  cases h
  simp [Work.after]

/-- How far a call has got. -/
inductive Attempt where
  /-- it has found a live batch whose wait is over -/
  | found (index : Nat)
  /-- it holds the lock -/
  | holding (index : Nat)
  /-- it has read the count of rounds and may run so many more -/
  | running (index before left : Nat) (work : Work)
  /-- it has released the lock at a count of rounds, and left the batch with
  or without members -/
  | released (index before after : Nat) (work : Work) (drained : Bool)
  /-- it has read the count again, which had grown since the release -/
  | leaving (report : Report) (own grown : Nat)
  | returned (report : Report) (own grown : Nat)
  /-- it has ended without an advance -/
  | refused
  /-- it has ended in a crash, behind so many rounds -/
  | crashed (index own : Nat)
  deriving DecidableEq, Repr, Inhabited

namespace Attempt

/-- The rounds that the call has run itself. -/
def own : Attempt → Nat
  | .running _ _ _ work => work.rounds
  | .released _ _ _ work _ => work.rounds
  | .leaving _ own _ => own
  | .returned _ own _ => own
  | .crashed _ own => own
  | _ => 0

/-- Whether the call has ended. -/
def isOver : Attempt → Bool
  | .returned _ _ _ | .refused | .crashed _ _ => true
  | _ => false

/-- What the call tells, or will. -/
def report? : Attempt → Option Report
  | .leaving report _ _ => some report
  | .returned report _ _ => some report
  | _ => none

/-- The rounds that the call has added to the metrics. -/
def reported (a : Attempt) : Nat := (a.report?.map Report.rounds).getD 0

/-- The rounds that the call has run and not told, so far or ever. -/
def untold (a : Attempt) : Nat := if a.report?.isSome then 0 else a.own

/-- The rounds that the count had grown by between the release of the lock and
the second reading. -/
def grown : Attempt → Nat
  | .leaving _ _ grown => grown
  | .returned _ _ grown => grown
  | _ => 0

end Attempt

/-- A registry, the batches removed from it, who holds which lock, and all calls
that were ever made. -/
structure Crew where
  registry : Registry
  removed : Nat → Option Batch := fun _ => none
  scans : Scans
  metrics : Metrics := {}
  /-- the call that holds the lock of a batch -/
  holder : Nat → Option Nat := fun _ => none
  calls : List Attempt := []

/-- A part of what is done to a registry, by a call of that number
where there is one. -/
inductive CrewPart where
  /-- form a batch of operations and insert it -/
  | insert (id : String) (operations : List Operation)
  /-- open scans, change the graph, or anything else that moves scans -/
  | move (scans : Scans)
  /-- make a new call -/
  | look (now index : Nat)
  | lock (call : Nat)
  | gate (call : Nat)
  | round (call : Nat) (receiver : Receiver) (now : Nat)
  | release (call : Nat)
  | read (call : Nat)
  | remove (call : Nat)

namespace Crew

/-- Nobody at an empty registry. -/
def ofCapacity (capacity : Nat) (scans : Scans) : Crew :=
  { registry := .ofCapacity capacity, scans := scans }

/-- The batch of an index, live or removed. -/
def batch? (c : Crew) (index : Nat) : Option Batch :=
  (c.registry.get? index).or (c.removed index)

/-- Make a call. -/
def makeCall (c : Crew) (a : Attempt) : Crew := { c with calls := c.calls ++ [a] }

/-- Bring a call further. -/
def setCall (c : Crew) (call : Nat) (a : Attempt) : Crew :=
  { c with calls := c.calls.set call a }

/-- Change a batch, wherever it is. -/
def put (c : Crew) (index : Nat) (b : Batch) : Crew :=
  { c with
    registry := c.registry.replace index b
    removed := Function.update c.removed index ((c.removed index).map fun _ => b) }

/-- Release a lock. -/
def unlock (c : Crew) (index : Nat) : Crew :=
  { c with holder := Function.update c.holder index none }

/-- Form a batch and insert it, if the operations can be grouped and there is room. -/
def insert (c : Crew) (id : String) (operations : List Operation) : Crew :=
  match Batch.form id operations c.scans with
  | .error _ => c
  | .ok b =>
    match c.registry.insert? b with
    | none => c
    | some (_, registry) => { c with registry := registry }

/-- Make a call: look the batch of an index up. -/
def look (c : Crew) (now index : Nat) : Crew :=
  c.makeCall (if (c.registry.get? index).any (·.retryDue now) then .found index
    else .refused)

/-- Take the lock of the batch that was found, unless someone else holds it. -/
def lock (c : Crew) (call : Nat) : Crew :=
  match c.calls[call]? with
  | some (.found index) =>
    match c.holder index with
    | some _ => c.setCall call .refused
    | none =>
      { c with holder := Function.update c.holder index (some call) }.setCall call
        (.holding index)
  | _ => c

/-- Read the count and go on to the rounds if the gate is open, or else
give the lock back. -/
def gate (sch : Scheduler) (c : Crew) (call : Nat) : Crew :=
  match c.calls[call]? with
  | some (.holding index) =>
    match c.batch? index with
    | none => c
    | some b =>
      if sch.isEligible c.registry index b then
        c.setCall call (.running index b.rounds sch.stride {})
      else (c.unlock index).setCall call .refused
  | _ => c

/-- Take what a round has left.  A round that did not run is the last one; a
crash that nothing caught gives the lock back and goes no further. -/
def take (sch : Scheduler) (c : Crew) (call now index before left : Nat) (work : Work)
    (a : Advance) : Crew :=
  let c := { c.put index (Fleet.waiting sch now a) with scans := a.scans }
  match a.ending with
  | .ran _ => c.setCall call (.running index before left work)
  | .aborted _ | .failed _ _ => c.setCall call (.running index before 0 work)
  | .crashed _ => (c.unlock index).setCall call (.crashed index work.rounds)

/-- Run one of the rounds that are left. -/
def round (sch : Scheduler) (c : Crew) (call : Nat) (receiver : Receiver) (now : Nat) :
    Crew :=
  match c.calls[call]? with
  | some (.running index before (left + 1) work) =>
    match c.batch? index with
    | none => c
    | some b =>
      let a := (sch.withStride 1).guardedAdvance receiver b c.scans
      take sch c call now index before left (work.after b a) a
  | _ => c

/-- Release the lock when no rounds are left. -/
def release (c : Crew) (call : Nat) : Crew :=
  match c.calls[call]? with
  | some (.running index before 0 work) =>
    match c.batch? index with
    | none => c
    | some b =>
      (c.unlock index).setCall call
        (.released index before b.rounds work b.members.isEmpty)
  | _ => c

/-- The metrics with the rounds of a report, and with the round that it
tells was aborted. -/
def addReport (m : Metrics) (report : Report) : Metrics :=
  let m := m.addRounds (UInt64.ofNat report.rounds)
  if report.aborted then m.countAborted else m

/-- Read the count again and add what it has grown by since the first reading. -/
def read (c : Crew) (call : Nat) : Crew :=
  match c.calls[call]? with
  | some (.released index before after work drained) =>
    match c.batch? index with
    | none => c
    | some b =>
      let report : Report :=
        ⟨index, b.rounds - before, work.completedAny, drained, work.aborted⟩
      { c with metrics := addReport c.metrics report }.setCall call
        (.leaving report work.rounds (b.rounds - after))
  | _ => c

/-- Take a batch out of the registry and count it, unless someone else has done so. -/
def drop (c : Crew) (index : Nat) : Crew :=
  match c.registry.remove? index with
  | none => c
  | some (b, registry) =>
    { c with
      registry := registry
      removed := Function.update c.removed index (some b)
      metrics := c.metrics.countDrained }

/-- Remove the batch if it was left empty, and return. -/
def remove (c : Crew) (call : Nat) : Crew :=
  match c.calls[call]? with
  | some (.leaving report own grown) =>
    (if report.drained then c.drop report.index else c).setCall call
      (.returned report own grown)
  | _ => c

/-- Do one part.  A part that is not the call's next changes nothing. -/
def answer (sch : Scheduler) (c : Crew) : CrewPart → Crew
  | .insert id operations => c.insert id operations
  | .move scans => { c with scans := scans }
  | .look now index => c.look now index
  | .lock call => c.lock call
  | .gate call => gate sch c call
  | .round call receiver now => round sch c call receiver now
  | .release call => c.release call
  | .read call => c.read call
  | .remove call => c.remove call

/-- Do parts in order. -/
def answerAll (sch : Scheduler) (c : Crew) (parts : List CrewPart) : Crew :=
  parts.foldl (answer sch) c

/-! ## Calls and batches -/

section

variable {c : Crew} {call index other : Nat} {a : Attempt} {b : Batch}

theorem calls_setCall_self (h : c.calls[call]? = some a) (a' : Attempt) :
    (c.setCall call a').calls[call]? = some a' := by
  unfold setCall
  rw [List.getElem?_set_self (List.getElem?_eq_some_iff.mp h).1]

@[simp] theorem setCall_setCall (c : Crew) (call : Nat) (a a' : Attempt) :
    (c.setCall call a).setCall call a' = c.setCall call a' := by
  unfold setCall
  rw [List.set_set]

theorem setCall_of_eq (h : c.calls[call]? = some a) : c.setCall call a = c := by
  obtain ⟨hlt, heq⟩ := List.getElem?_eq_some_iff.mp h
  unfold setCall
  rw [← heq, List.set_getElem_self]

@[simp] theorem calls_makeCall_length (c : Crew) (a : Attempt) :
    (c.makeCall a).calls[c.calls.length]? = some a := List.getElem?_concat_length

@[simp] theorem setCall_makeCall (c : Crew) (a a' : Attempt) :
    (c.makeCall a).setCall c.calls.length a' = c.makeCall a' := by
  simp [setCall, makeCall]

theorem free_of_unlock (free : c.holder index = none) :
    Function.update (Function.update c.holder index (some call)) index none = c.holder := by
  rw [Function.update_idem, ← free, Function.update_eq_self]

theorem drop_setCall (c : Crew) (call : Nat) (a : Attempt) (index : Nat) :
    (c.setCall call a).drop index = (c.drop index).setCall call a := by
  unfold drop setCall
  cases c.registry.remove? index <;> rfl

theorem drop_frame (c : Crew) (index : Nat) :
    (c.drop index).scans = c.scans ∧ (c.drop index).holder = c.holder ∧
      (c.drop index).calls = c.calls := by
  unfold drop
  split <;> exact ⟨rfl, rfl, rfl⟩

theorem batch?_of_get? (live : c.registry.get? index = some b) :
    c.batch? index = some b := by
  unfold batch?
  rw [live, Option.some_or]

theorem put_of_live (gone : c.removed index = none) (b : Batch) :
    c.put index b = { c with registry := c.registry.replace index b } := by
  unfold put
  rw [gone, Option.map_none, ← gone, Function.update_eq_self]

end

theorem waiting_frame (sch : Scheduler) (now : Nat) (a : Advance) :
    (Fleet.waiting sch now a).rounds = a.batch.rounds ∧
      (Fleet.waiting sch now a).members = a.batch.members := by
  unfold Fleet.waiting
  split <;> exact ⟨rfl, rfl⟩

/-! ## A call on its own -/

/-- The parts of a call behind its look. -/
def attempt (stride call : Nat) (receiver : Receiver) (now : Nat) : List CrewPart :=
  .lock call :: .gate call :: (List.replicate stride (.round call receiver now) ++
    [.release call, .read call, .remove call])

/-- Whether the part comes behind the look of the call. -/
def Follows (call : Nat) : CrewPart → Prop
  | .lock k | .gate k | .round k _ _ | .release k | .read k | .remove k => k = call
  | _ => False

section

variable {sch : Scheduler} {c : Crew} {call now index before left : Nat}
  {receiver : Receiver} {work : Work}
  {a : Advance} {b : Batch}

/-- A batch that a call changes twice is as the call leaves it last. -/
theorem take_setCall (hr : c.registry.Sound) (live : c.registry.get? index = some b)
    (gone : c.removed index = none) (b' : Batch) (s : Scans) (stage : Attempt)
    (a : Advance) :
    take sch
      ({ c with registry := c.registry.replace index b', scans := s }.setCall call
        stage) call now index
        before left work a =
      take sch c call now index before left work a := by
  have hput := put_of_live (c := c) gone (Fleet.waiting sch now a)
  have hput' := put_of_live gone (Fleet.waiting sch now a)
    (c := { c with registry := c.registry.replace index b', scans := s }.setCall call stage)
  unfold take
  rw [hput, hput']
  unfold setCall unlock
  simp only [Registry.replace_replace hr live, List.set_set]

/-- Only a call that has rounds left runs one. -/
theorem answerAll_rounds_of_left (count : Nat)
    (h : ∀ index before left work,
      c.calls[call]? ≠ some (.running index before (left + 1) work)) :
    c.answerAll sch (List.replicate count (.round call receiver now)) = c := by
  induction count with
  | zero => rfl
  | succ count ih =>
    have hround : round sch c call receiver now = c := by
      unfold round
      split
      · rename_i hrunning
        exact absurd hrunning (h _ _ _ _)
      · rfl
    show (round sch c call receiver now).answerAll sch _ = c
    rw [hround]
    exact ih

theorem take_of_ran {completedAny : Bool} (gone : c.removed index = none)
    (ran : a.ending = .ran completedAny) :
    take sch c call now index before left work a =
      { c with registry := c.registry.replace index a.batch, scans := a.scans }.setCall call
        (.running index before left work) := by
  unfold take Fleet.waiting
  rw [put_of_live gone, ran]

theorem take_of_not_ran (stopped : ∀ completedAny, a.ending ≠ .ran completedAny) :
    take sch c call now index before left work a =
      take sch c call now index before 0 work a := by
  unfold take
  cases hending : a.ending with
  | ran completedAny => exact absurd hending (stopped completedAny)
  | aborted f | failed members f | crashed crash => rfl

theorem not_running_take {stage : Attempt} (made : c.calls[call]? = some stage)
    (stopped : ∀ completedAny, a.ending ≠ .ran completedAny)
    {index' before' left' : Nat} {work' : Work} :
    (take sch c call now index before 0 work a).calls[call]? ≠
      some (.running index' before' (left' + 1) work') := by
  intro hrunning
  unfold take at hrunning
  cases hending : a.ending with
  | ran completedAny => exact absurd hending (stopped completedAny)
  | aborted f | failed members f | crashed crash =>
    rw [hending] at hrunning
    cases (calls_setCall_self made _).symm.trans hrunning

/-- What rounds before an advance have completed makes no difference
to what it leaves. -/
theorem take_after (c : Crew) (work : Work) (completedAny : Bool)
    (earlier : List Delivery) :
    take sch c call now index before 0 work a =
      take sch c call now index before 0 work (a.after completedAny earlier) := by
  obtain ⟨ending, batch, scans, deliveries⟩ := a
  cases ending <;> rfl

/-- The rounds that a call runs on its own are one guarded advance. -/
theorem answerAll_rounds (hr : c.registry.Sound) (gone : c.removed index = none)
    (sch : Scheduler) (receiver : Receiver) (now count : Nat)
    (live : c.registry.get? index = some b)
    (running : c.calls[call]? = some (.running index before count work))
    (sane : work.aborted = false) :
    c.answerAll sch (List.replicate count (.round call receiver now)) =
      take sch c call now index before 0
        (work.after b ((sch.withStride count).guardedAdvance receiver b c.scans))
        ((sch.withStride count).guardedAdvance receiver b c.scans) := by
  induction count generalizing c b work with
  | zero =>
    show c = take sch c call now index before 0
      (work.after b ⟨.ran false, b, c.scans, []⟩) ⟨.ran false, b, c.scans, []⟩
    rw [take_of_ran gone rfl, Registry.replace_self live, Work.after_self sane]
    exact (setCall_of_eq running).symm
  | succ count ih =>
    have hround : round sch c call receiver now =
        take sch c call now index before count
          (work.after b ((sch.withStride 1).guardedAdvance receiver b c.scans))
          ((sch.withStride 1).guardedAdvance receiver b c.scans) := by
      unfold round
      simp only [running, batch?_of_get? live]
    have hfirst := ((sch.withStride 1).rounds_guardedAdvance receiver b c.scans).1
    rw [Scheduler.guardedAdvance_succ]
    show (round sch c call receiver now).answerAll sch _ = _
    rw [hround]
    generalize (sch.withStride 1).guardedAdvance receiver b c.scans = first at hfirst
    by_cases hran : ∃ completedAny, first.ending = .ran completedAny
    · obtain ⟨completedAny, hran⟩ := hran
      have hothers :=
        ((sch.withStride count).rounds_guardedAdvance receiver first.batch first.scans).1
      rw [take_of_ran gone hran, ← Work.after_andThen work hran hfirst hothers]
      have hstep := ih
        (c := { c with
          registry := c.registry.replace index first.batch
          scans := first.scans }.setCall call
            (.running index before count (work.after b first)))
        (hr.replace index first.batch) gone (Registry.get?_replace_self hr live _)
        (calls_setCall_self running (.running index before count (work.after b first)))
        (by unfold Work.after; rw [hran])
      refine hstep.trans ((take_setCall hr live gone ..).trans ?_)
      rw [Advance.andThen_of_ran hran]
      exact take_after ..
    · have hstopped := not_exists.mp hran
      rw [Advance.andThen_of_not_ran hstopped, take_of_not_ran hstopped]
      exact answerAll_rounds_of_left count fun _ _ _ _ =>
        not_running_take running hstopped

/-- A call that has no rounds left gives the lock back, tells what it did, and
removes the batch if it is empty. -/
theorem answerAll_ending (sch : Scheduler) (live : c.registry.get? index = some b)
    {stage : Attempt} (made : c.calls[call]? = some stage) :
    let told := { c.unlock index with
      metrics := addReport c.metrics (work.report index before b) }
    (c.setCall call (.running index before 0 work)).answerAll sch
        [.release call, .read call, .remove call] =
      (if b.members.isEmpty then told.drop index else told).setCall call
        (.returned (work.report index before b) work.rounds 0) := by
  intro told
  have hrelease : (c.setCall call (.running index before 0 work)).release call =
      (c.unlock index).setCall call
          (.released index before b.rounds work b.members.isEmpty) := by
    unfold release
    have hbatch : (c.setCall call (.running index before 0 work)).batch? index =
      some b := batch?_of_get? live
    simp only [calls_setCall_self made, hbatch]
    exact setCall_setCall (c.unlock index) ..
  have hread :
    ((c.unlock index).setCall call
      (.released index before b.rounds work b.members.isEmpty)).read call =
      told.setCall call (.leaving (work.report index before b) work.rounds 0) := by
    unfold read
    have hbatch : ((c.unlock index).setCall call
        (.released index before b.rounds work b.members.isEmpty)).batch? index =
          some b := batch?_of_get? live
    simp only [calls_setCall_self (c := c.unlock index) made, hbatch, Nat.sub_self]
    exact setCall_setCall told ..
  show remove (read (release (c.setCall call (.running index before 0 work)) call) call)
    call = _
  rw [hrelease, hread]
  unfold remove
  simp only [calls_setCall_self (c := told) made]
  have hdrained : (work.report index before b).drained = b.members.isEmpty := rfl
  rw [hdrained]
  cases b.members.isEmpty with
  | true =>
    simp only [if_true]
    rw [drop_setCall, setCall_setCall]
    rfl
  | false => exact setCall_setCall ..

theorem take_of_ended (gone : c.removed index = none)
    (ended : ∀ crash, a.ending ≠ .crashed crash) :
    take sch c call now index before 0 work a =
      { c with
        registry := c.registry.replace index (Fleet.waiting sch now a)
        scans := a.scans }.setCall call (.running index before 0 work) := by
  unfold take
  rw [put_of_live gone]
  cases hending : a.ending with
  | crashed crash => exact absurd hending (ended crash)
  | ran | aborted f | failed members f => rfl

/-- A call that has told of an advance, and has removed its batch if that is
empty, has settled the advance. -/
theorem settle_eq (sch : Scheduler) (now index : Nat) (b : Batch) {a : Advance}
    {r : Registry} {m : Metrics} (ended : ∀ crash, a.ending ≠ .crashed crash) {c : Crew}
    (registry : c.registry = r.replace index (Fleet.waiting sch now a))
    (metrics : c.metrics = addReport m
      ((({} : Work).after b a).report index b.rounds (Fleet.waiting sch now a))) :
    let c' := if (Fleet.waiting sch now a).members.isEmpty then c.drop index else c
    let turn := sch.settle now index b.rounds a r m
    c'.registry = turn.registry ∧ c'.metrics = turn.metrics ∧ turn.scans = a.scans ∧
      turn.report =
        some ((({} : Work).after b a).report index b.rounds
          (Fleet.waiting sch now a)) := by
  intro c' turn
  have hempty : c' =
    (if (Fleet.waiting sch now a).members.isEmpty then c.drop index else c) := rfl
  generalize c' = c' at hempty
  obtain ⟨ending, left, s, deliveries⟩ := a
  cases ending with
  | crashed crash => exact absurd rfl (ended crash)
  | ran | aborted reason | failed members reason =>
    simp only [turn, Scheduler.settle, Bool.false_eq_true, if_false, if_true]
    split
    · rename_i hnone
      replace hempty := hempty.trans (if_pos hnone)
      rw [drop, registry] at hempty
      simp only [Fleet.waiting] at hempty
      split
      · rename_i hremove
        rw [hremove] at hempty
        rw [hempty]
        exact ⟨rfl, congrArg Metrics.countDrained metrics, rfl, rfl⟩
      · rename_i hremove
        rw [hremove] at hempty
        rw [hempty]
        exact ⟨registry, metrics, rfl, rfl⟩
    · rename_i hsome
      rw [hempty.trans (if_neg hsome)]
      exact ⟨registry, metrics, rfl, rfl⟩

/-- A call that was let through runs its rounds on its own and settles them. -/
theorem answerAll_settled (hr : c.registry.Sound) (gone : c.removed index = none)
    (live : c.registry.get? index = some b) (sch : Scheduler) (now : Nat) {stage : Attempt}
    (made : c.calls[call]? = some stage) (ended : ∀ crash, a.ending ≠ .crashed crash) :
    let c' := (take sch c call now index b.rounds 0 (({} : Work).after b a) a).answerAll sch
      [.release call, .read call, .remove call]
    let turn := sch.settle now index b.rounds a c.registry c.metrics
    c'.registry = turn.registry ∧ c'.scans = turn.scans ∧ c'.metrics = turn.metrics ∧
      c'.holder = Function.update c.holder index none ∧
      ∃ report, turn.report = some report ∧
        c'.calls = c.calls.set call (.returned report report.rounds 0) := by
  intro c' turn
  let left : Crew := { c with
    registry := c.registry.replace index (Fleet.waiting sch now a)
    scans := a.scans }
  let told : Crew := { left.unlock index with
    metrics := addReport c.metrics
      ((({} : Work).after b a).report index b.rounds (Fleet.waiting sch now a)) }
  have hc' :
    c' = (if (Fleet.waiting sch now a).members.isEmpty then told.drop index
      else told).setCall call
      (.returned
        ((({} : Work).after b a).report index b.rounds (Fleet.waiting sch now a))
        (({} : Work).after b a).rounds 0) :=
    (congrArg (answerAll sch · _) (take_of_ended gone ended)).trans
      (answerAll_ending (c := left) sch (Registry.get?_replace_self hr live _) made)
  obtain ⟨hregistry, hmetrics, hscans, hreport⟩ :=
    settle_eq sch now index b ended (c := told) rfl rfl
  have hown : (({} : Work).after b a).rounds =
      ((({} : Work).after b a).report index b.rounds
          (Fleet.waiting sch now a)).rounds := by
    unfold Work.report Work.after
    rw [(waiting_frame sch now a).1]
    exact Nat.zero_add _
  have hframe : ∀ told', told' =
    (if (Fleet.waiting sch now a).members.isEmpty then told.drop index else told) →
      told'.scans = told.scans ∧ told'.holder = told.holder ∧
          told'.calls = told.calls := by
    intro told' htold
    rw [htold]
    split
    · exact drop_frame told index
    · exact ⟨rfl, rfl, rfl⟩
  obtain ⟨hleft, hholder, hcalls⟩ := hframe _ rfl
  rw [hc', hown]
  exact ⟨hregistry, hleft.trans hscans.symm, hmetrics, hholder, _, hreport,
    congrArg (List.set · call _) hcalls⟩

theorem follows_attempt (stride call : Nat) (receiver : Receiver) (now : Nat) :
    ∀ part ∈ attempt stride call receiver now, Follows call part := by
  simp [attempt, Follows, List.mem_replicate, or_imp, forall_and]

/-- A call that is over goes no further. -/
theorem answerAll_of_isOver {stage : Attempt} (made : c.calls[call]? = some stage)
    (ended : stage.isOver = true) {parts : List CrewPart}
    (hparts : ∀ part ∈ parts, Follows call part) : c.answerAll sch parts = c := by
  induction parts with
  | nil => rfl
  | cons part parts ih =>
    obtain ⟨hpart, hrest⟩ := List.forall_mem_cons.mp hparts
    have hsame : answer sch c part = c := by
      cases part with
      | insert | move | look => cases hpart
      | lock | gate | round | release | read | remove =>
        cases hpart
        unfold answer lock gate round release read remove
        cases stage with
        | found | holding | running | released | leaving => cases ended
        | returned | refused | crashed => simp only [made]
    show (answer sch c part).answerAll sch parts = c
    rw [hsame]
    exact ih hrest

/-- A call whose rounds have crashed leaves what they left, and goes no further. -/
theorem answerAll_crashed (gone : c.removed index = none) {stage : Attempt}
    (made : c.calls[call]? = some stage) {crash : Crash}
    (crashed : a.ending = .crashed crash) {parts : List CrewPart}
    (hparts : ∀ part ∈ parts, Follows call part) :
    (take sch c call now index before 0 work a).answerAll sch parts =
      { c with
        registry := c.registry.replace index a.batch
        scans := a.scans
        holder := Function.update c.holder index none }.setCall call
          (.crashed index work.rounds) := by
  have htake : take sch c call now index before 0 work a =
      { c with
        registry := c.registry.replace index a.batch
        scans := a.scans
        holder := Function.update c.holder index none }.setCall call
            (.crashed index work.rounds) := by
    unfold take Fleet.waiting
    rw [put_of_live gone, crashed]
    rfl
  rw [htake]
  exact answerAll_of_isOver
    (c := { c with
      registry := c.registry.replace index a.batch
      scans := a.scans
      holder := Function.update c.holder index none }.setCall call
        (.crashed index work.rounds))
    (calls_setCall_self made _) rfl hparts

/-- A call that was let through and is on its own does what `advanceIndex` does. -/
theorem answerAll_running (hr : c.registry.Sound) (gone : c.removed index = none)
    (live : c.registry.get? index = some b) (sch : Scheduler) (receiver : Receiver) (now : Nat)
    (running : c.calls[call]? = some (.running index b.rounds sch.stride {}))
    (due : b.retryDue now = true) (unlocked : b.locked = false)
    (eligible : sch.isEligible c.registry index b = true) :
    let c' := c.answerAll sch (List.replicate sch.stride (.round call receiver now) ++
      [.release call, .read call, .remove call])
    let turn := sch.advanceIndex receiver now index c.registry c.scans c.metrics
    c'.registry = turn.registry ∧ c'.scans = turn.scans ∧ c'.metrics = turn.metrics ∧
      c'.holder = Function.update c.holder index none ∧
      ∃ a, c'.calls = c.calls.set call a ∧ a.report? = turn.report ∧ a.grown = 0 := by
  intro c' turn
  have hrounds :
    c.answerAll sch (List.replicate sch.stride (.round call receiver now)) =
      take sch c call now index b.rounds 0
        (({} : Work).after b (sch.guardedAdvance receiver b c.scans))
            (sch.guardedAdvance receiver b c.scans) :=
    answerAll_rounds hr gone sch receiver now sch.stride live running rfl
  have hc' :
    c' =
      (c.answerAll sch (List.replicate sch.stride (.round call receiver now))).answerAll sch
      [.release call, .read call, .remove call] := List.foldl_append
  rw [hc', hrounds]
  simp only [turn, Scheduler.advanceIndex, live, due, unlocked, eligible, Bool.not_true,
    Bool.or_self, Bool.false_eq_true, if_false]
  by_cases hcrashed : ∃ crash, (sch.guardedAdvance receiver b c.scans).ending =
    .crashed crash
  · obtain ⟨crash, hcrash⟩ := hcrashed
    rw [answerAll_crashed gone running hcrash (by simp [Follows]), hcrash]
    exact ⟨rfl, rfl, rfl, rfl, _, rfl, rfl, rfl⟩
  · have hended : ∀ crash, (sch.guardedAdvance receiver b c.scans).ending ≠
        .crashed crash :=
      not_exists.mp hcrashed
    obtain ⟨hregistry, hscans, hmetrics, hholder, report, hreport, hcalls⟩ :=
      answerAll_settled hr gone live sch now running hended
    cases hending : (sch.guardedAdvance receiver b c.scans).ending with
    | crashed crash => exact absurd hending (hended crash)
    | ran | aborted reason | failed members reason =>
      exact ⟨hregistry, hscans, hmetrics, hholder, _, hcalls, hreport.symm, rfl⟩

/-- A new call that has found a batch takes its lock. -/
theorem lock_makeCall (free : c.holder index = none) :
    (c.makeCall (.found index)).lock c.calls.length =
      { c with holder := Function.update c.holder index (some c.calls.length) }.makeCall
        (.holding index) := by
  have hfree : (c.makeCall (.found index)).holder index = none := free
  unfold lock
  simp only [calls_makeCall_length, hfree]
  exact setCall_makeCall
    { c with holder := Function.update c.holder index (some c.calls.length) } ..

/-- A new call that has taken a lock goes on to the rounds, or gives it
back and is refused. -/
theorem gate_makeCall (live : c.registry.get? index = some b)
    (free : c.holder index = none) (sch : Scheduler) :
    let locked : Crew :=
      { c with holder := Function.update c.holder index (some c.calls.length) }
    gate sch (locked.makeCall (.holding index)) c.calls.length =
      if sch.isEligible c.registry index b then
        locked.makeCall (.running index b.rounds sch.stride {})
      else c.makeCall .refused := by
  intro locked
  have hbatch : (locked.makeCall (.holding index)).batch? index = some b :=
    batch?_of_get? live
  have hstage : (locked.makeCall (.holding index)).calls[c.calls.length]? =
      some (.holding index) :=
    calls_makeCall_length locked _
  have hback : (locked.makeCall (.holding index)).unlock index =
      c.makeCall (.holding index) :=
    congrArg (fun holder => { c.makeCall (.holding index) with holder := holder })
      (free_of_unlock free)
  unfold gate
  simp only [hstage, hbatch, hback]
  exact ite_congr rfl (fun _ => setCall_makeCall locked ..)
    (fun _ => setCall_makeCall c ..)

/-- A call that goes through all parts on its own does and tells what
`advanceIndex` does, and nothing comes in between its readings. -/
theorem answerAll_attempt (hr : c.registry.Sound) (gone : c.removed index = none)
    (free : c.holder index = none)
    (unlocked : ∀ b, c.registry.get? index = some b → b.locked = false) :
    let c' := c.answerAll sch
      (.look now index :: attempt sch.stride c.calls.length receiver now)
    let turn := sch.advanceIndex receiver now index c.registry c.scans c.metrics
    c'.registry = turn.registry ∧ c'.scans = turn.scans ∧ c'.metrics = turn.metrics ∧
      c'.holder = c.holder ∧
      ∃ a, c'.calls = c.calls ++ [a] ∧ a.report? = turn.report ∧ a.grown = 0 := by
  intro c' turn
  have hfollows := follows_attempt sch.stride c.calls.length receiver now
  have hrefused : ∀ parts, (∀ part ∈ parts, Follows c.calls.length part) →
      (c.makeCall .refused).answerAll sch parts =
          c.makeCall .refused := fun parts hparts =>
    answerAll_of_isOver (calls_makeCall_length c _) rfl hparts
  have hc' : c' = (c.look now index).answerAll sch
    (attempt sch.stride c.calls.length receiver now) := rfl
  have hidle : c' = c.makeCall .refused →
    turn = ⟨none, c.registry, c.scans, c.metrics, [], [], none⟩ →
      c'.registry = turn.registry ∧ c'.scans = turn.scans ∧ c'.metrics = turn.metrics ∧
      c'.holder = c.holder ∧
        ∃ a, c'.calls = c.calls ++ [a] ∧ a.report? = turn.report ∧ a.grown = 0 := by
    intro hcrew hturn
    rw [hcrew, hturn]
    exact ⟨rfl, rfl, rfl, rfl, _, rfl, rfl, rfl⟩
  unfold look at hc'
  cases hlive : c.registry.get? index with
  | none =>
    rw [hlive, Option.any_none, if_neg Bool.false_ne_true, hrefused _ hfollows] at hc'
    refine hidle hc' ?_
    simp only [turn, Scheduler.advanceIndex, hlive]
  | some b =>
    rw [hlive, Option.any_some] at hc'
    cases hdue : b.retryDue now with
    | false =>
      rw [hdue, if_neg Bool.false_ne_true, hrefused _ hfollows] at hc'
      refine hidle hc' ?_
      simp only [turn, Scheduler.advanceIndex, hlive, hdue, Bool.not_false,
        Bool.true_or, if_true]
    | true =>
      have hopen := unlocked b hlive
      have hrest := (List.forall_mem_cons.mp (List.forall_mem_cons.mp hfollows).2).2
      rw [hdue, if_pos rfl] at hc'
      change c' =
        (gate sch ((c.makeCall (.found index)).lock c.calls.length)
          c.calls.length).answerAll sch
        (List.replicate sch.stride (.round c.calls.length receiver now) ++
          [.release c.calls.length, .read c.calls.length, .remove c.calls.length]) at hc'
      rw [lock_makeCall free, gate_makeCall hlive free] at hc'
      cases heligible : sch.isEligible c.registry index b with
      | false =>
        rw [heligible, if_neg Bool.false_ne_true, hrefused _ hrest] at hc'
        refine hidle hc' ?_
        simp only [turn, Scheduler.advanceIndex, hlive, hdue, hopen, heligible,
          Bool.not_true, Bool.not_false, Bool.or_true, if_true]
      | true =>
        rw [heligible, if_pos rfl] at hc'
        let locked : Crew :=
          { c with holder := Function.update c.holder index (some c.calls.length) }
        obtain ⟨hregistry, hscans, hmetrics, hholder, a, hcalls, hreport, hgrown⟩ :=
          answerAll_running
            (c := locked.makeCall (.running index b.rounds sch.stride {})) hr
            gone hlive sch
            receiver now (calls_makeCall_length locked _) hdue hopen heligible
        have hcalls' : c'.calls = c.calls ++ [a] := by
          rw [hc', hcalls]
          exact congrArg Crew.calls (setCall_makeCall locked _ a)
        rw [hc'] at hcalls' ⊢
        exact ⟨hregistry, hscans, hmetrics, hholder.trans (free_of_unlock free), a,
          hcalls', hreport, hgrown⟩

end

end Crew

end Lockstep
