import Lockstep.Proofs.Engine.Drain
import Lockstep.Proofs.Engine.Drivable
set_option autoImplicit false

/-!
# Every drain comes to its end

Whatever the scans and the operators of an engine do, each turn of a drain uses
something up.  Forming a batch takes operations out of the queue.  An advance
takes rounds off the lifetime of its batch, and nothing gives them back.  If no
batch can be advanced, the oldest one waits for a retry, since the gate is open
for it and nobody holds it; then the turn lets time pass until some retry is
due.  So a drain ends within its bound, and it ends with nothing left.
-/

namespace Lockstep

theorem Batch.retryDue_mono {b : Batch} {now later : Nat} (le : now ≤ later)
    (h : b.retryDue now = true) :
    b.retryDue later = true := by
  unfold retryDue at h ⊢
  split at h
  · rfl
  · exact decide_eq_true (Nat.le_trans (of_decide_eq_true h) le)

theorem Batch.countP_retryDue_le (batches : List Batch) {now later : Nat}
    (le : now ≤ later) :
    (batches.countP fun b => !b.retryDue later) ≤ batches.countP fun b =>
      !b.retryDue now := by
  refine List.countP_mono_left fun b _ hb => ?_
  cases hdue : b.retryDue now with
  | true =>
    rw [retryDue_mono le hdue] at hb
    exact hb
  | false => rfl

/-- When the time of a retry has come, fewer batches wait than before. -/
theorem Batch.countP_retryDue_lt {batches : List Batch} {now time : Nat}
    (later : now < time) (waits : ∃ b ∈ batches, b.retryAt = some time) :
    (batches.countP fun b => !b.retryDue time) < batches.countP fun b =>
      !b.retryDue now := by
  obtain ⟨b, hb, hretry⟩ := waits
  obtain ⟨before, behind, rfl⟩ := List.append_of_mem hb
  have hnew : b.retryDue time = true := by simp [retryDue, hretry]
  have hold : b.retryDue now = false := by simp [retryDue, hretry, later]
  have hbefore := countP_retryDue_le before later.le
  have hbehind := countP_retryDue_le behind later.le
  rw [List.countP_append, List.countP_append, List.countP_cons, List.countP_cons, hnew, hold]
  simp only [Bool.not_true, Bool.not_false, Bool.false_eq_true, if_false, if_true]
  omega

namespace Engine

variable {e e' : Engine}

/-! ## What a drain uses up -/

/-- The rounds that an operation that waits could run in a batch of its own, and
one turn to form it. -/
def waitingLifetime (e : Engine) (op : Operation) : Nat :=
  (e.scans.remaining op.pipeline.cursor + 1) * (e.config.maxRoundRetries.toNat + 2) + 1

/-- The rounds that are left at most, for what waits and for what is in batches. -/
def lifetimes (e : Engine) : Nat :=
  (e.queue.operations.map e.waitingLifetime).sum +
    (e.registry.batches.map (Batch.lifetime e.config.maxRoundRetries e.scans)).sum

/-- How many live batches wait for a retry. -/
def heldBack (e : Engine) : Nat := e.registry.batches.countP fun b => !b.retryDue e.now

/-- What a drain uses up: the rounds that are left, and a wait before each of them. -/
def endurance (e : Engine) : Nat := 2 * e.lifetimes + e.heldBack

theorem lifetimes_of_receives {taken : List Delivery} (rest : Receives taken e e') :
    e'.lifetimes = e.lifetimes := by
  unfold lifetimes waitingLifetime
  rw [rest.queue, rest.registry, rest.scans, rest.config]

theorem endurance_of_receives {taken : List Delivery} (rest : Receives taken e e')
    (now : e'.now = e.now) :
    e'.endurance = e.endurance := by
  unfold endurance heldBack
  rw [lifetimes_of_receives rest, rest.registry, now]

theorem waitingLifetime_le_scanBound (e : Engine) (op : Operation) :
    e.waitingLifetime op ≤ e.scanBound op := by
  have hbound : e.scanBound op =
      (e.scans.remaining op.pipeline.cursor + 1) *
        (e.config.maxRoundRetries.toNat + 2) +
        (e.config.maxRoundRetries.toNat + 2) := Nat.succ_mul _ _
  unfold waitingLifetime
  omega

theorem lifetime_le_scanBound (e : Engine) {b : Batch} {op : Operation}
    {others : List Operation} (members : b.members = op :: others) :
    b.lifetime e.config.maxRoundRetries e.scans ≤ e.scanBound op := by
  have hbound := e.waitingLifetime_le_scanBound op
  have hcursor : b.cursor = op.pipeline.cursor := by
    unfold Batch.cursor
    rw [members]
  unfold waitingLifetime at hbound
  unfold Batch.lifetime
  rw [Nat.succ_mul] at hbound
  rw [hcursor]
  omega

/-- A drain has turns enough. -/
theorem endurance_le_drainBound (registered : e.Registered) :
    e.endurance ≤ e.drainBound := by
  have hqueue : (e.queue.operations.map e.waitingLifetime).sum ≤
      (e.queue.operations.map e.scanBound).sum :=
    List.sum_le_sum fun op _ => e.waitingLifetime_le_scanBound op
  have hbatches :
    (e.registry.batches.map (Batch.lifetime e.config.maxRoundRetries e.scans)).sum ≤
        ((e.registry.batches.flatMap (·.members)).map e.scanBound).sum ∧
      e.registry.batches.length ≤ (e.registry.batches.flatMap (·.members)).length := by
    have hpeopled := registered.peopled
    generalize e.registry.batches = batches at hpeopled
    induction batches with
    | nil => exact ⟨Nat.le_refl _, Nat.le_refl _⟩
    | cons b batches ih =>
      obtain ⟨hb, hothers⟩ := List.forall_mem_cons.mp hpeopled
      obtain ⟨op, others, hmembers⟩ := List.exists_cons_of_ne_nil hb
      have hbound := e.lifetime_le_scanBound hmembers
      obtain ⟨hsum, hlength⟩ := ih hothers
      simp only [List.map_cons, List.sum_cons, List.flatMap_cons, List.map_append,
        List.sum_append, List.length_append, List.length_cons, hmembers]
      omega
  have hheld : e.heldBack ≤ e.registry.batches.length := List.countP_le_length
  rw [drainBound_eq]
  unfold endurance lifetimes
  omega

/-! ## Time -/

theorem now_complete (e : Engine) (d : Delivery) : (e.complete d).1.now = e.now := by
  unfold complete
  dsimp only
  split
  · unfold completeOk
    split <;> rfl
  · unfold completeFailed
    split <;> rfl

theorem now_completeAll (e : Engine) (deliveries : List Delivery) :
    (e.completeAll deliveries).1.now = e.now := by
  induction deliveries generalizing e with
  | nil => rfl
  | cons d others ih =>
    have hfirst := e.now_complete d
    unfold completeAll
    generalize e.complete d = completed at hfirst
    obtain ⟨e', crash⟩ := completed
    cases crash with
    | some crash => exact hfirst
    | none => exact (ih e').trans hfirst

theorem now_receiveAll (e : Engine) (deliveries : List Delivery) :
    (e.receiveAll deliveries).now = e.now := by
  induction deliveries generalizing e with
  | nil => rfl
  | cons d others ih => exact (ih _).trans (e.now_complete d)

/-- Forming a batch takes no time. -/
theorem now_formBatch (e : Engine) : e.formBatch.2.now = e.now := by
  unfold formBatch
  split
  · rfl
  · generalize e.queue.drainBatch e.config.batchSize = drained
    obtain ⟨operations, queue⟩ := drained
    dsimp only
    split
    · rfl
    · split
      · unfold register
        dsimp only
        split <;> rfl
      · rename_i f operations' _
        have hall :=
          now_completeAll
            ({ e with queue := queue }.reject operations'.length f.message)
          (operations'.map fun op => ⟨op, .failed f.display⟩)
        generalize completeAll _ _ = completed at hall
        obtain ⟨e', crash⟩ := completed
        cases crash <;> exact hall

theorem now_settle (e : Engine) (turn : Turn) : (e.settle turn).now = e.now :=
  now_receiveAll
    { e with
      registry := turn.registry
      scans := turn.scans
      metrics := turn.metrics } turn.deliveries

/-- If a batch waits for a retry, letting time pass makes one due. -/
theorem endurance_awaitRetry (held : e.heldBack ≠ 0) :
    e.awaitRetry.endurance < e.endurance := by
  obtain ⟨b, hb, hwaits⟩ := List.countP_pos_iff.mp (Nat.pos_of_ne_zero held)
  have hbehind : ∃ time, b.retryAt = some time ∧ e.now < time := by
    unfold Batch.retryDue at hwaits
    split at hwaits
    · cases hwaits
    · rename_i time hretry
      exact ⟨time, hretry, by simpa using hwaits⟩
  obtain ⟨time, hretry, hlater⟩ := hbehind
  have hmem : time ∈ (e.registry.batches.filterMap (·.retryAt)).filter (e.now < ·) :=
    List.mem_filter.mpr ⟨List.mem_filterMap.mpr ⟨b, hb, hretry⟩, decide_eq_true hlater⟩
  unfold awaitRetry nextRetry?
  cases hmin : ((e.registry.batches.filterMap (·.retryAt)).filter (e.now < ·)).min? with
  | none =>
    rw [List.min?_eq_none_iff.mp hmin] at hmem
    cases hmem
  | some next =>
    obtain ⟨hnext, hlater⟩ := List.mem_filter.mp (List.min?_mem hmin)
    obtain ⟨b', hb', hretry'⟩ := List.mem_filterMap.mp hnext
    exact Nat.add_lt_add_left
      (Batch.countP_retryDue_lt (of_decide_eq_true hlater) ⟨b', hb', hretry'⟩) _

/-! ## Forming batches -/

theorem lifetimes_front (e : Engine) :
    e.lifetimes = (e.front.1.map e.waitingLifetime).sum +
      ({ e with queue := e.front.2 } : Engine).lifetimes := by
  unfold lifetimes
  rw [← e.front_append, List.map_append, List.sum_append, Nat.add_assoc]
  rfl

/-- A batch that is formed has fewer rounds left than one of its operations had. -/
theorem lifetimes_formed (registered : e.Registered) {name : String} {b : Batch}
    {index : Nat} {r : Registry} (form : Batch.form name e.front.1 e.scans = .ok b)
    (insert : e.registry.insert? b = some (index, r)) :
    ({ e with queue := e.front.2, registry := r } : Engine).lifetimes < e.lifetimes := by
  obtain ⟨leader, hleader, hcursor⟩ := Batch.exists_leader form
  have hle := List.le_sum_of_mem (List.mem_map_of_mem (f := e.waitingLifetime) hleader)
  have hnew : b.lifetime e.config.maxRoundRetries e.scans <
      e.waitingLifetime leader := by
    unfold Batch.lifetime waitingLifetime
    rw [Batch.cursor_eq (Batch.members_ne_nil_of_form form) hcursor, Nat.succ_mul]
    omega
  have hlifetimes : ({ e with queue := e.front.2, registry := r } : Engine).lifetimes =
      ({ e with queue := e.front.2 } : Engine).lifetimes +
          b.lifetime e.config.maxRoundRetries e.scans := by
    unfold lifetimes
    dsimp only
    rw [(Registry.batches_insert? registered.kept.sound insert).2, List.map_append,
      List.sum_append, List.map_singleton, List.sum_singleton, Nat.add_assoc]
    rfl
  rw [hlifetimes, e.lifetimes_front]
  omega

theorem heldBack_formed (registered : e.Registered) {name : String} {b : Batch}
    {index : Nat} {r : Registry} (form : Batch.form name e.front.1 e.scans = .ok b)
    (insert : e.registry.insert? b = some (index, r)) :
    ({ e with queue := e.front.2, registry := r } : Engine).heldBack = e.heldBack := by
  unfold heldBack
  dsimp only
  rw [(Registry.batches_insert? registered.kept.sound insert).2, List.countP_append,
    List.countP_singleton, Batch.retryDue_of_none (Batch.unstarted_of_form form).2]
  rfl

theorem endurance_dropFront (some : e.front.1 ≠ []) :
    ({ e with queue := e.front.2 } : Engine).endurance < e.endurance := by
  obtain ⟨op, others, hfront⟩ := List.exists_cons_of_ne_nil some
  have hlifetimes := e.lifetimes_front
  rw [hfront, List.map_cons, List.sum_cons] at hlifetimes
  have hheld : ({ e with queue := e.front.2 } : Engine).heldBack = e.heldBack := rfl
  have hpositive : 0 < e.waitingLifetime op := Nat.succ_pos _
  unfold endurance
  omega

namespace Drivable

/-- Time that passes takes nothing away, and leaves no more to do. -/
theorem elapse (h : e.Drivable) {reading : Nat}
    (clock : (Calendar.instant? (reading - e.ledger.retention)).isSome = true) :
    (e.elapse reading).Drivable ∧ (e.elapse reading).endurance ≤ e.endurance := by
  refine ⟨⟨h.registered.congr rfl, h.unlocked, Ledger.obstacle?_of_isSome clock,
    h.feeds, h.batchSize, h.stride⟩, ?_⟩
  have hheld : (e.elapse reading).heldBack ≤ e.heldBack :=
    Batch.countP_retryDue_le e.registry.batches (Nat.le_max_left e.now reading)
  have hlifetimes : (e.elapse reading).lifetimes = e.lifetimes := rfl
  unfold endurance
  omega

/-- A drain forms a batch, or has one that is live, or has failed what waits in
front. -/
theorem formBatch (h : e.Drivable) (remains : e.remaining ≠ 0) :
    (∀ crash, e.formBatch.1 ≠ .error (.crashed crash)) ∧ e.formBatch.2.Drivable ∧
      e.formBatch.2.endurance ≤ e.endurance ∧
      (e.formBatch.2.registry.batches = [] →
        e.formBatch.2.endurance < e.endurance) := by
  have hdrivable := h.move e.move_formBatch
  have hforming := e.forming_formBatch
  have hnow := e.now_formBatch
  generalize e.formBatch.1 = result at hforming
  generalize e.formBatch.2 = e' at hforming hdrivable hnow
  cases hforming with
  | full full rest =>
    refine ⟨by simp, hdrivable, (endurance_of_receives rest hnow).le, fun hnone => ?_⟩
    have hroom := h.registered.kept.isFull_of_batches (rest.registry ▸ hnone)
    rw [hroom] at full
    cases full
  | idle empty =>
    refine ⟨by simp, hdrivable, Nat.le_refl _, fun hnone => ?_⟩
    have hqueue : e.queue.operations = [] := by
      by_contra hsome
      exact Queue.drainBatch_ne_nil hsome h.batchSize empty
    exact absurd (remaining_of_empty hqueue hnone) remains
  | formed form insert rest =>
    have hless : e'.endurance < e.endurance := by
      rw [endurance_of_receives rest hnow]
      unfold endurance
      rw [heldBack_formed h.registered form insert]
      have hlifetimes := lifetimes_formed h.registered form insert
      omega
    exact ⟨by simp, hdrivable, hless.le, fun _ => hless⟩
  | refused nonempty form some all rest =>
    have hless : e'.endurance < e.endurance := by
      rw [endurance_of_receives rest hnow]
      exact endurance_dropFront nonempty
    refine ⟨?_, hdrivable, hless.le, fun _ => hless⟩
    rw [(all h.ready).1]
    simp

/-! ## Advancing batches -/

/-- What is not fed by the cursor of a batch has as many rounds left
after that has moved. -/
theorem lifetimes_others (h : e.Drivable) {index : Nat} {b : Batch}
    (live : e.registry.get? index = some b) {id : CursorId} {s : Scans}
    (moves : Scans.OnlyMoves id e.scans s)
    (apart : ∀ ops ∈ e.groupsBut index, ∀ op ∈ ops, op.pipeline.cursor ≠ id) :
    e.queue.operations.map ({ e with scans := s } : Engine).waitingLifetime =
        e.queue.operations.map e.waitingLifetime ∧
      (e.registry.before index ++ e.registry.behind index).map
        (Batch.lifetime e.config.maxRoundRetries s) =
        (e.registry.before index ++ e.registry.behind index).map
          (Batch.lifetime e.config.maxRoundRetries e.scans) := by
  refine ⟨List.map_congr_left fun op hop => ?_, List.map_congr_left fun b' hb' => ?_⟩
  · unfold waitingLifetime
    dsimp only
    rw [moves.remaining
      (apart [op] (List.mem_append_left _ (List.mem_map_of_mem hop)) op
      (List.mem_singleton_self op))]
  · have hlive := Registry.mem_batches_of_others live hb'
    exact Batch.lifetime_of_onlyMoves _ moves (h.registered.peopled b' hlive)
      (apart b'.members (List.mem_append_right _ (List.mem_map_of_mem hb')))

/-- An advance takes rounds off its batch and off no other, and at most this one
waits for a retry then. -/
theorem endurance_advanced (h : e.Drivable) {index : Nat} {b : Batch} {r : Registry}
    (live : e.registry.get? index = some b)
    (resettled : e.registry.Resettled index
      (e.scheduler.guardedAdvance none b e.scans).batch r)
    (emptied : (e.scheduler.guardedAdvance none b e.scans).batch.members = [] →
      r.batches = e.registry.before index ++ e.registry.behind index) :
    ({ e with registry := r, scans := (e.scheduler.guardedAdvance none b e.scans).scans } :
      Engine).endurance < e.endurance := by
  obtain ⟨id, hopen, hcursor, happart⟩ := h.apart live
  have hmoves :=
    (e.scheduler.kept_guardedAdvance none hopen
      (Batch.inStep_any_iff.mpr hcursor)).1.moves
  have hlifetime := e.scheduler.lifetime_guardedAdvance hopen hcursor
  obtain ⟨hqueue, hothers⟩ := h.lifetimes_others live hmoves happart
  have hsame := congrArg List.sum hothers
  have hstride : min e.scheduler.stride 1 = 1 := Nat.min_eq_right h.stride
  unfold endurance lifetimes heldBack
  dsimp only
  rw [Registry.batches_of_get? live]
  generalize e.scheduler.guardedAdvance none b e.scans = a
    at resettled emptied hlifetime hqueue hsame
  have hqueue' : e.queue.operations.map
      ({ e with registry := r, scans := a.scans } : Engine).waitingLifetime =
        e.queue.operations.map e.waitingLifetime := hqueue
  rw [hqueue']
  have hpositive : 0 < b.lifetime e.config.maxRoundRetries e.scans := Nat.succ_pos _
  rcases resettled.cases emptied with hgone | ⟨hsome, retryAt, hback⟩
  · rw [hgone]
    simp only [List.map_append, List.sum_append, List.map_cons, List.sum_cons,
      List.countP_append, List.countP_cons] at hsame ⊢
    omega
  · have hless := hlifetime hsome
    rw [hstride] at hless
    obtain ⟨b', hlast, hback⟩ : ∃ b', b'.lifetime e.config.maxRoundRetries a.scans =
        a.batch.lifetime e.scheduler.maxRetries a.scans ∧
          r.batches = e.registry.before index ++ b' :: e.registry.behind index :=
            ⟨_, rfl, hback⟩
    have hmost : b.lifetime e.scheduler.maxRetries e.scans =
        b.lifetime e.config.maxRoundRetries e.scans := rfl
    have hone : (if (!b'.retryDue e.now) = true then 1 else 0) ≤ 1 := by
      split <;> decide
    rw [hback]
    simp only [List.map_append, List.sum_append, List.map_cons, List.sum_cons,
      List.countP_append, List.countP_cons] at hsame ⊢
    omega

/-- A turn of the scheduler advances a batch, or leaves all as it is while the
oldest batch waits. -/
theorem advanceNext (h : e.Drivable) (live : e.registry.batches ≠ []) :
    (∃ report, e.advanceNext.1 = .ok (some report)) ∧ e.advanceNext.2.endurance <
      e.endurance ∨
      e.advanceNext.1 = .ok none ∧ e.advanceNext.2.endurance = e.endurance ∧
        e.advanceNext.2.heldBack ≠ 0 := by
  obtain ⟨b, others, hbatches⟩ := List.exists_cons_of_ne_nil live
  have hreport : b.retryDue e.now = true →
      (e.scheduler.advanceNext none e.now e.registry e.scans e.metrics).report.isSome = true :=
    Scheduler.report_advanceNext h.registered.kept hbatches
      (h.unlocked b (hbatches ▸ List.mem_cons_self))
  have hcase : Scheduler.TurnCase e.scheduler none e.registry e.scans
      (e.scheduler.advanceNext none e.now e.registry e.scans e.metrics) :=
        Scheduler.turnCase_advanceNext
  unfold Engine.advanceNext
  rw [h.ready]
  dsimp only
  generalize e.scheduler.advanceNext none e.now e.registry e.scans e.metrics = turn
    at hreport hcase
  have hreceives := e.receives_settle turn
  have hendurance := endurance_of_receives hreceives (e.now_settle turn)
  cases hcase with
  | idle report crash registry scans deliveries =>
    rw [report] at hreport
    rw [crash, report]
    rw [registry, scans] at hendurance
    refine .inr ⟨rfl, hendurance, ?_⟩
    unfold heldBack
    rw [hreceives.registry, e.now_settle turn]
    dsimp only
    rw [registry, hbatches, List.countP_cons]
    -- had the oldest batch been due, there would be something to report
    cases hdue : b.retryDue e.now with
    | true => exact absurd (hreport hdue) (by simp)
    | false => simp
  | advanced index live report registry emptied scans deliveries =>
    obtain ⟨hsome, hcrash⟩ := report rfl
    obtain ⟨report, hsome⟩ := Option.isSome_iff_exists.mp hsome
    have hsound := h.registered.kept.sound
    rw [hcrash, hsome]
    rw [scans] at hendurance
    refine .inl ⟨⟨report, rfl⟩, hendurance.trans_lt ?_⟩
    exact h.endurance_advanced live (registry hsound) (emptied rfl hsound)

/-! ## Drains -/

/-- Every turn goes on and uses something up. -/
theorem advanceTurn (h : e.Drivable) (remains : e.remaining ≠ 0) :
    e.advanceTurn.1 = .ok () ∧ e.advanceTurn.2.Drivable ∧ e.advanceTurn.2.endurance <
      e.endurance := by
  have hdrivable := h.moves e.moves_advanceTurn
  obtain ⟨hgoing, hformed, hle, hidle⟩ := h.formBatch remains
  unfold Engine.advanceTurn at hdrivable ⊢
  rw [formQuietly_of_going hgoing] at hdrivable ⊢
  dsimp only at hdrivable ⊢
  generalize e.formBatch.2 = e' at hformed hle hidle hdrivable
  by_cases hlive : e'.registry.batches = []
  · obtain ⟨hnone, hrest⟩ := e'.advanceNext_of_idle hformed.registered.kept hlive
    have hnow : e'.advanceNext.2.now = e'.now := by
      unfold Engine.advanceNext
      dsimp only
      split <;> exact e'.now_settle _
    have hstill : e'.advanceNext.2.awaitRetry = e'.advanceNext.2 :=
      awaitRetry_of_idle (hrest.registry ▸ hlive)
    have hless := hidle hlive
    rw [← endurance_of_receives hrest hnow] at hless
    generalize e'.advanceNext = result at hnone hstill hless hdrivable
    obtain ⟨result, e''⟩ := result
    subst hnone
    dsimp only at hstill hless hdrivable ⊢
    rw [hstill] at hdrivable ⊢
    exact ⟨rfl, hdrivable, hless⟩
  · rcases hformed.advanceNext hlive
      with ⟨⟨report, hreport⟩, hless⟩ | ⟨hnone, hsame, hheld⟩
    · generalize e'.advanceNext = result at hreport hless hdrivable
      obtain ⟨result, e''⟩ := result
      subst hreport
      exact ⟨rfl, hdrivable, hless.trans_le hle⟩
    · generalize e'.advanceNext = result at hnone hsame hheld hdrivable
      obtain ⟨result, e''⟩ := result
      subst hnone
      dsimp only at hsame hheld
      have hless := endurance_awaitRetry hheld
      exact ⟨rfl, hdrivable, hless.trans_le (hsame.trans_le hle)⟩

/-- So a drain comes to its end, whatever times the clocks show before its turns. -/
theorem drainDuring (h : e.Drivable) {turn : Engine → Except Stop Unit × Engine}
    (turns : ∀ e : Engine, e.Drivable → e.remaining ≠ 0 → turn e = e.advanceTurn)
    (readings : List Nat)
    (clock : ∀ reading ∈ readings,
      (Calendar.instant? (reading - e.ledger.retention)).isSome = true) {fuel : Nat}
    (enough : e.endurance ≤ fuel) :
    (Engine.drainDuring readings turn fuel e).1 = .ok () ∧
      (Engine.drainDuring readings turn fuel e).2.Drivable ∧
      (Engine.drainDuring readings turn fuel e).2.remaining = 0 := by
  let P (e' : Engine) : Prop := e'.Drivable ∧ e'.ledger.retention = e.ledger.retention
  have hpasses : ∀ reading ∈ readings, ∀ e', P e' →
      P (e'.elapse reading) ∧ (e'.elapse reading).endurance ≤ e'.endurance := by
    rintro reading hreading e' ⟨hdrivable, hretention⟩
    obtain ⟨hpassed, hle⟩ := hdrivable.elapse (hretention ▸ clock reading hreading)
    exact ⟨⟨hpassed, hretention⟩, hle⟩
  have hturns : ∀ e', P e' → e'.remaining ≠ 0 →
      (turn e').1 = .ok () ∧ P (turn e').2 ∧ (turn e').2.endurance < e'.endurance := by
    rintro e' ⟨hdrivable, hretention⟩ remains
    rw [turns e' hdrivable remains]
    obtain ⟨hok, hnext, hless⟩ := hdrivable.advanceTurn remains
    exact ⟨hok,
      ⟨hnext, (carries_of_moves e'.moves_advanceTurn).retention.trans hretention⟩, hless⟩
  obtain ⟨hok, ⟨hlast, -⟩, hzero⟩ :=
    drainDuring_of_headway hpasses hturns fuel ⟨h, rfl⟩ enough
  exact ⟨hok, hlast, hzero⟩

end Drivable

/-- A drain of an engine that was asked for anything before comes to its end: with
its bound of turns, and with every larger number of them, nothing remains and no
batch is registered.  This holds for every configuration that is valid and
whatever the plans read and however their scans and operators fail or crash, for
good or for some time; only the clock of the ledger has to stay in reach of its
retention.  However many retries there are, a batch runs out of them: an aborted
round behind the largest count crashes the advance, and that fails the batch.  Nor
does it matter how much time passes between the turns of the drain. -/
theorem runUntilDrained_ends {config : Config} {names : Names} {graph : Graph}
    {start : Engine} (made : create config names graph = .ok start)
    (requests : List Request)
    (clock : ∀ time, .call (.tick time) ∈ requests →
      (Calendar.instant? (time - config.retentionMs)).isSome = true)
    (idle : (start.requestAll requests).propagating = false) :
    let e := start.requestAll requests
    e.runUntilDrained.1 = .ok () ∧ e.runUntilDrained.2.remaining = 0 ∧
      e.runUntilDrained.2.registry.batches = [] ∧
      e.runUntilDrained.2.registry.isEmpty = true ∧
      (∀ fuel, e.drainBound ≤ fuel → drainBy advanceTurn fuel e = e.runUntilDrained) ∧
      ∀ readings : List Nat,
        (∀ reading ∈ readings,
          (Calendar.instant? (reading - config.retentionMs)).isSome = true) →
        ∀ fuel, e.drainBound ≤ fuel →
          let drained := drainDuring readings advanceTurn fuel e
          drained.1 = .ok () ∧ drained.2.remaining = 0 ∧ drained.2.registry.isEmpty = true := by
  obtain ⟨hstart, hretention⟩ := Drivable.create made
  rw [← hretention] at clock
  obtain ⟨hdrivable, hsame⟩ := hstart.requestAll requests clock
  intro e
  have hbound : e.endurance ≤ e.drainBound :=
    endurance_le_drainBound hdrivable.registered
  obtain ⟨hok, hlast, hzero⟩ :=
    drainBy_of_headway (fun _ h remains => h.advanceTurn remains) e.drainBound
    hdrivable hbound
  have hrun : e.runUntilDrained = drainBy advanceTurn e.drainBound e := by
    unfold runUntilDrained
    rw [idle]
    rfl
  obtain ⟨hbatches, hcount⟩ := hlast.registered.batches_of_remaining hzero
  rw [hrun]
  refine ⟨hok, hzero, hbatches, beq_iff_eq.mpr hcount,
    fun fuel hle => drainBy_of_le hle hzero, ?_⟩
  intro readings reach fuel hle
  rw [← hretention, ← hsame] at reach
  obtain ⟨hok, hlast, hzero⟩ :=
    hdrivable.drainDuring (fun _ _ _ => rfl) readings reach (Nat.le_trans hbound hle)
  exact ⟨hok, hzero, beq_iff_eq.mpr (hlast.registered.batches_of_remaining hzero).2⟩

/-- A plan over two rows, on the second of which an operator crashes. -/
def crashingPlan : Plan where
  kind := .allNodes
  source := .script [.row (.nat 1), .row (.nat 2)]
  links := [.fault (.afterRows 2 (.crashed .other)), .limit 5 5]

/-- A plan over the nodes of the graph. -/
def nodesPlan : Plan where
  kind := .allNodes
  source := .graph .allNodes 0
  links := [.project []]

/-- Requests after which a batch has aborted a round before its scan
crashes, another one scans a graph whose transaction stays closed, and a
query that crashes waits. -/
def troubledRequests : List Request :=
  let accept (plan : Plan) : Request := .call (.execute (fun _ => .ok plan) "rows")
  [accept shakyPlan, .call .formBatch, .dispatchOne, accept nodesPlan, .call .formBatch,
    .call (.disturb .close), .call (.tick 1000), .startPropagation, .stopPropagation,
      accept crashingPlan]

/-- None of the three is left after a drain. -/
theorem runUntilDrained_ends_troubled :
    ∃ start, create { retryBackoffMs := 0 } default default = .ok start ∧
    let e := start.requestAll troubledRequests
    e.remaining = 3 ∧ e.runUntilDrained.1 = .ok () ∧ e.runUntilDrained.2.remaining = 0 ∧
      e.runUntilDrained.2.registry.batches = [] := by
  have hmade : create { retryBackoffMs := 0 } default default =
      .ok (fresh { retryBackoffMs := 0 } default default) :=
    create_eq_ok_iff.mpr ⟨Config.validate_default, rfl⟩
  refine ⟨_, hmade, by decide +kernel, ?_⟩
  have hclock : ∀ time, .call (.tick time) ∈ troubledRequests →
      (Calendar.instant?
          (time - ({ retryBackoffMs := 0 } : Config).retentionMs)).isSome = true := by
    intro time htime
    simp only [troubledRequests, List.mem_cons, List.not_mem_nil, reduceCtorEq,
      Request.call.injEq, Call.tick.injEq, false_or, or_false] at htime
    rw [htime]
    decide
  obtain ⟨hok, hzero, hbatches, -⟩ :=
    runUntilDrained_ends hmade troubledRequests hclock (by decide +kernel)
  exact ⟨hok, hzero, hbatches⟩

end Engine

end Lockstep
