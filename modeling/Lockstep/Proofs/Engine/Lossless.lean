import Lockstep.Proofs.Engine.Conservation
set_option autoImplicit false

/-!
# No operation is lost or doubled

An engine is called in any order.  As long as its ledger's clock can be told
and no operation crashes while it is stepped on its own, every accepted
operation is found between any two calls in exactly one place, and what was
delivered stays delivered.
-/

namespace Lockstep

theorem Ledger.obstacle?_of_isSome {l : Ledger} {now : Int}
    (h : (Calendar.instant? (now - l.retention)).isSome = true) :
    l.obstacle? now = none := by
  unfold obstacle?
  obtain ⟨cutoff, hcutoff⟩ := Option.isSome_iff_exists.mp h
  rw [hcutoff]

theorem Config.isSome_instant?_retentionMs (c : Config) :
    (Calendar.instant? (0 - c.retentionMs)).isSome = true := by
  have hfirst : Calendar.first ≤ -(maxRetentionSecs * 1000 : Int) := by decide
  have hlast : (0 : Int) ≤ Calendar.last := by decide
  have hretention : 0 ≤ c.retentionMs ∧
      c.retentionMs ≤ (maxRetentionSecs * 1000 : Int) := by
    unfold retentionMs
    omega
  unfold Calendar.instant?
  rw [if_pos (by omega)]
  rfl

namespace Engine

variable {e e' : Engine}

theorem accounts_create {config : Config} {names : Names} {graph : Graph}
    (h : create config names graph = .ok e) :
    e.Accounts ∧ e.ledger.retention = config.retentionMs ∧ e.queue.nextSequence = 0 ∧
      e.delivered = [] := by
  obtain ⟨-, rfl⟩ := create_eq_ok_iff.mp h
  have hbatches : (Registry.ofCapacity config.registryCapacity).batches = [] := rfl
  refine ⟨⟨Registry.sound_ofCapacity _, ?_, ?_, ?_⟩, rfl, rfl, rfl⟩
  · show ∀ b ∈ (Registry.ofCapacity config.registryCapacity).batches, b.locked = false
    rw [hbatches]
    exact List.forall_mem_nil _
  · exact Ledger.obstacle?_of_isSome config.isSome_instant?_retentionMs
  · unfold waiting batched completed
    exact .refl _

/-- What one call does to the account: it adds the number that it gives
out, if it does. -/
structure Continues (e : Engine) (answer : Answer) (e' : Engine) : Prop where
  accounts : e'.Accounts
  retention : e'.ledger.retention = e.ledger.retention
  numbers : List.range e'.queue.nextSequence =
    List.range e.queue.nextSequence ++ answer.accepted?.toList
  delivered : e.delivered <:+ e'.delivered

theorem Accounts.accepted (h : e.Accounts) {query : String} {pipeline : Pipeline}
    {s : Scans}
    (rest : Receives []
      { e with queue := (e.queue.enqueue query pipeline).2, scans := s } e') :
    Continues e (.executed (.ok e.queue.nextSequence)) e' := by
  have hnext : e'.queue.nextSequence = e.queue.nextSequence + 1 := by
    rw [rest.queue]
    rfl
  refine ⟨.of_receives rest h.sound h.unlocked h.ready ?_, rest.retention, ?_, ?_⟩
  · have hwaiting :
      (e.queue.enqueue query pipeline).2.operations.map Operation.sequence =
        e.waiting ++ [e.queue.nextSequence] := List.map_append
    have hnumbers : List.range (e.queue.enqueue query pipeline).2.nextSequence =
        List.range e.queue.nextSequence ++ [e.queue.nextSequence] := List.range_succ
    have hcount := List.perm_iff_count.mp h.numbers
    rw [List.perm_iff_count]
    intro n
    specialize hcount n
    dsimp only
    rw [hnumbers]
    unfold waiting batched completed at hcount ⊢
    dsimp only
    rw [hwaiting]
    unfold waiting
    simp only [List.count_append, List.map_nil, List.count_nil] at hcount ⊢
    omega
  · rw [hnext]
    exact List.range_succ
  · exact ⟨[], rest.delivered.symm⟩

/-- Every call continues the account, unless it loses an operation. -/
theorem Accounts.answer (h : e.Accounts) (call : Call)
    (clock : ∀ time, call = .tick time →
      (Calendar.instant? (time - e.ledger.retention)).isSome = true)
    (steady : (e.answer call).1.isLoss = false) :
    Continues e (e.answer call).1 (e.answer call).2 := by
  have hcase := e.callCase call
  generalize (e.answer call).1 = answer at hcase steady
  generalize (e.answer call).2 = e' at hcase
  cases hcase with
  | accepted planned rest => exact h.accepted rest
  | moved moves none stored =>
    have hcarries := carries_of_moves moves
    refine ⟨h.moves moves, hcarries.retention, ?_, hcarries.delivered⟩
    rw [hcarries.next, none]
    exact (List.append_nil _).symm
  | lost loss given =>
    rw [given] at steady
    cases steady
  | ticked time =>
    refine ⟨⟨h.sound, h.unlocked, ?_, h.numbers⟩, rfl, (List.append_nil _).symm,
      List.suffix_rfl⟩
    exact Ledger.obstacle?_of_isSome (clock time rfl)
  | disturbed d =>
    exact ⟨⟨h.sound, h.unlocked, h.ready, h.numbers⟩, rfl, (List.append_nil _).symm,
      List.suffix_rfl⟩

/-- A run of calls continues the account. -/
theorem Accounts.answerAll (h : e.Accounts) (calls : List Call)
    (clock : ∀ time, .tick time ∈ calls →
      (Calendar.instant? (time - e.ledger.retention)).isSome = true)
    (steady : ∀ answer ∈ (e.answerAll calls).1, answer.isLoss = false) :
    (e.answerAll calls).2.Accounts ∧
      (e.answerAll calls).2.ledger.retention = e.ledger.retention ∧
      List.range (e.answerAll calls).2.queue.nextSequence =
        List.range e.queue.nextSequence ++
          (e.answerAll calls).1.filterMap Answer.accepted? ∧
      e.delivered <:+ (e.answerAll calls).2.delivered := by
  induction calls generalizing e with
  | nil => exact ⟨h, rfl, (List.append_nil _).symm, List.suffix_rfl⟩
  | cons call calls ih =>
    obtain ⟨hfirst, hrest⟩ := List.forall_mem_cons.mp steady
    have hcall :=
      h.answer call (fun time htime => clock time (htime ▸ List.mem_cons_self)) hfirst
    have hclock : ∀ time, .tick time ∈ calls →
        (Calendar.instant? (time - (e.answer call).2.ledger.retention)).isSome = true := by
      intro time htime
      rw [hcall.retention]
      exact clock time (List.mem_cons_of_mem _ htime)
    obtain ⟨haccounts, hretention, hnumbers, hdelivered⟩ :=
      ih hcall.accounts hclock hrest
    refine ⟨haccounts, hretention.trans hcall.retention, ?_,
      hcall.delivered.trans hdelivered⟩
    have hanswers : (e.answerAll (call :: calls)).1 =
        (e.answer call).1 :: ((e.answer call).2.answerAll calls).1 := rfl
    rw [hanswers, List.filterMap_cons]
    refine hnumbers.trans ?_
    rw [hcall.numbers, List.append_assoc]
    cases (e.answer call).1.accepted? <;> rfl

/-- What a run of calls delivered stays delivered in the calls that follow. -/
theorem Accounts.completed_subset (h : e.Accounts) (earlier later : List Call)
    (clock : ∀ time, .tick time ∈ earlier ++ later →
      (Calendar.instant? (time - e.ledger.retention)).isSome = true)
    (steady : ∀ answer ∈ (e.answerAll (earlier ++ later)).1, answer.isLoss = false) :
    (e.answerAll earlier).2.completed ⊆
      (e.answerAll (earlier ++ later)).2.completed := by
  rw [answerAll_append] at steady ⊢
  obtain ⟨hearlier, hlater⟩ := List.forall_mem_append.mp steady
  obtain ⟨haccounts, hretention, -⟩ := h.answerAll earlier
    (fun time htime => clock time (List.mem_append_left _ htime)) hearlier
  have hclock : ∀ time, .tick time ∈ later →
      (Calendar.instant? (time - (e.answerAll earlier).2.ledger.retention)).isSome = true := by
    intro time htime
    rw [hretention]
    exact clock time (List.mem_append_right _ htime)
  obtain ⟨-, -, -, hdelivered⟩ := haccounts.answerAll later hclock hlater
  exact (hdelivered.map _).subset

/-- What remains are the operations that wait and those in batches. -/
theorem remaining_eq (e : Engine) : e.remaining = (e.waiting ++ e.batched).length := by
  have hbatched : e.batched.length = e.registry.operations := by
    unfold batched Registry.operations
    rw [List.length_flatMap]
    simp only [List.length_map]
    rfl
  rw [List.length_append, hbatched]
  unfold remaining pendingCount batchedCount waiting Queue.size
  rw [List.length_map]

theorem remaining_of_empty (queue : e.queue.operations = [])
    (batches : e.registry.batches = []) :
    e.remaining = 0 := by
  rw [remaining_eq]
  unfold waiting batched
  rw [queue, batches]
  rfl

/-- All that was accepted has been delivered once nothing remains. -/
theorem Accounts.completed_of_remaining (h : e.Accounts) (none : e.remaining = 0) :
    e.completed.Perm (List.range e.queue.nextSequence) := by
  have hempty : e.waiting ++ e.batched = [] :=
    List.eq_nil_of_length_eq_zero (e.remaining_eq ▸ none)
  have hnumbers := h.numbers
  rw [hempty] at hnumbers
  exact hnumbers

/-- Between any two calls every accepted operation waits, is in one batch or was
delivered, and in one of these places only; it is delivered once at most, and
what was delivered neither waits nor is in a batch ever again; and the
operations that remain are those accepted and not delivered.  Accepted
operations are numbered from zero in order.  This holds for every engine that
can be made and every order of calls, whatever fails or crashes in a batch, as
long as the clock's readings let the ledger reach back over its retention and no
operation crashes while it is stepped on its own. -/
theorem conserves_operations {config : Config} {names : Names} {graph : Graph}
    {start : Engine} (made : create config names graph = .ok start) (calls : List Call)
    (clock : ∀ time, .tick time ∈ calls →
      (Calendar.instant? (time - config.retentionMs)).isSome = true)
    (steady : ∀ answer ∈ (start.answerAll calls).1, answer.isLoss = false) :
    let e := (start.answerAll calls).2
    let accepted := (start.answerAll calls).1.filterMap Answer.accepted?
    accepted = List.range accepted.length ∧
      (e.waiting ++ e.batched ++ e.completed).Perm accepted ∧
      e.remaining + e.completed.length = accepted.length ∧
      ∀ earlier, earlier <+: calls → ∀ n ∈ (start.answerAll earlier).2.completed,
        n ∈ e.completed ∧ n ∉ e.waiting ∧ n ∉ e.batched := by
  obtain ⟨haccounts, hretention, hnext, hnone⟩ := accounts_create made
  rw [← hretention] at clock
  obtain ⟨hlast, -, hnumbers, -⟩ := haccounts.answerAll calls clock steady
  intro e accepted
  have haccepted : List.range e.queue.nextSequence = accepted := by
    rw [hnext] at hnumbers
    exact hnumbers
  have hlength : e.queue.nextSequence = accepted.length := by
    rw [← haccepted, List.length_range]
  have hperm := hlast.numbers
  change (e.waiting ++ e.batched ++ e.completed).Perm (List.range e.queue.nextSequence) at hperm
  refine ⟨?_, haccepted ▸ hperm, ?_, ?_⟩
  · rw [← hlength]
    exact haccepted.symm
  · rw [remaining_eq, ← List.length_append, hperm.length_eq, List.length_range, hlength]
  · intro earlier hearlier n hn
    have hkept : n ∈ e.completed := by
      obtain ⟨later, rfl⟩ := hearlier
      exact haccounts.completed_subset earlier later clock steady hn
    have hdistinct : (e.waiting ++ e.batched ++ e.completed).Nodup :=
      hperm.nodup_iff.mpr List.nodup_range
    have hapart := (List.nodup_append.mp hdistinct).2.2
    exact ⟨hkept, fun h => hapart n (List.mem_append_left _ h) n hkept rfl,
      fun h => hapart n (List.mem_append_right _ h) n hkept rfl⟩

/-- A plan over two rows with a failure before them and a crash behind them. -/
def shakyPlan : Plan where
  kind := .allNodes
  source :=
    .script [.interruption (.failed ⟨.transactionUnavailable, "busy"⟩), .row (.nat 1),
    .row (.nat 2), .interruption (.crashed .other)]
  links := []

/-- Calls by which three operations are accepted; the first is stepped on its own
and then crashes in its batch, the second gets into a batch, and the third waits. -/
def threeAccepted : List Call :=
  let accept : Call := .execute (fun _ => .ok shakyPlan) "rows"
  [accept, .propagateAt 0, .propagateAt 0, .formBatch, .tick 1000, accept, .advanceNext,
    .takeOutcome 0, .formBatch, accept]

/-- After these calls the first operation was delivered, the second is in a
batch and the third waits. -/
theorem conserves_operations_three : ∃ start, create {} default default = .ok start ∧
    let e := (start.answerAll threeAccepted).2
    e.completed = [0] ∧ e.batched = [1] ∧ e.waiting = [2] ∧
      (e.waiting ++ e.batched ++ e.completed).Perm [0, 1, 2] ∧
      e.remaining + e.completed.length = 3 := by
  have hmade : create {} default default = .ok (fresh {} default default) :=
    create_eq_ok_iff.mpr ⟨Config.validate_default, rfl⟩
  refine ⟨_, hmade, ?_⟩
  have hclock : ∀ time, .tick time ∈ threeAccepted →
      (Calendar.instant? (time - ({} : Config).retentionMs)).isSome = true := by
    intro time htime
    simp only [threeAccepted, List.mem_cons, List.not_mem_nil, reduceCtorEq,
      Call.tick.injEq, false_or, or_false] at htime
    rw [htime]
    decide
  obtain ⟨-, hplaces, hremaining, -⟩ := conserves_operations hmade threeAccepted hclock
    (by decide +kernel)
  have haccepted :
    ((fresh {} default default).answerAll threeAccepted).1.filterMap Answer.accepted? =
      [0, 1, 2] := by
    decide +kernel
  rw [haccepted] at hplaces hremaining
  exact ⟨by decide +kernel, by decide +kernel, by decide +kernel, hplaces, hremaining⟩

end Engine

end Lockstep
