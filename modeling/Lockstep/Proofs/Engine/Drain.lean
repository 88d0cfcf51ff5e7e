import Lockstep.Proofs.Engine.Fluent
import Lockstep.Proofs.Engine.Lasting
set_option autoImplicit false

/-!
# Drains come to their end

While nothing disturbs an engine, every turn of a drain leaves less to do: it
forms a batch or fails what cannot be grouped, and if any batch is live it
advances the oldest.  No turn stops the drain, and there are enough turns for
all that is to do.
-/

namespace Lockstep

/-! ## How many turns a drain takes -/

theorem Source.length_rows_le (g : Graph) (source : Source) :
    (source.rows g).length ≤ source.remaining g := by
  cases source with
  | graph kind position =>
    have hfilter := List.length_filter_le (fun node => node.isIn kind)
      (g.nodes.toList.drop position)
    unfold rows Graph.rowsFrom remaining
    rw [List.length_map]
    simpa using hfilter
  | script entries =>
    show (scriptRows entries).length ≤ entries.length
    induction entries with
    | nil => exact Nat.le_refl _
    | cons entry rest ih =>
      cases entry with
      | row row => exact Nat.succ_le_succ ih
      | interruption i => exact Nat.le_succ_of_le ih
      | ending => exact Nat.zero_le _

theorem Scans.length_upcoming_le (s : Scans) (id : CursorId) :
    (s.upcoming id).length ≤ (s.cursor id).source.remaining s.graph := by
  unfold upcoming Cursor.upcoming
  split
  · exact Nat.zero_le _
  · exact Source.length_rows_le _ _

namespace Engine

theorem length_upcoming_le_scanBound (e : Engine) (op : Operation) :
    (e.scans.upcoming op.pipeline.cursor).length + 2 ≤ e.scanBound op := by
  have hrows := e.scans.length_upcoming_le op.pipeline.cursor
  unfold scanBound
  exact Nat.le_trans (Nat.add_le_add_right hrows 2)
    (Nat.le_mul_of_pos_right _ (Nat.succ_pos _))

theorem toPull_le_scanBound (e : Engine) (ops : List Operation) :
    e.scans.toPull ops ≤ (ops.map e.scanBound).sum := by
  cases ops with
  | nil => exact Nat.le_refl _
  | cons op ops =>
    have hbound := e.length_upcoming_le_scanBound op
    rw [Scans.toPull, List.map_cons, List.sum_cons]
    omega

/-- The bound, with what waits and what is in batches apart. -/
theorem drainBound_eq (e : Engine) :
    e.drainBound =
      2 * ((e.queue.operations.map e.scanBound).sum +
        ((e.registry.batches.flatMap (·.members)).map e.scanBound).sum +
        (e.queue.operations.length +
          (e.registry.batches.flatMap (·.members)).length) + 1) := by
  have hsum :
    ((e.queue.operations ++ e.registry.batches.flatMap (·.members)).map
      e.scanBound).foldr (· + ·) 0 = (e.queue.operations.map e.scanBound).sum +
        ((e.registry.batches.flatMap (·.members)).map e.scanBound).sum := by
    rw [List.map_append]
    exact List.sum_append
  unfold drainBound
  dsimp only
  rw [hsum, List.length_append]

/-- A drain has turns enough for the load. -/
theorem load_le_drainBound (e : Engine) : e.load ≤ e.drainBound := by
  have hqueue : ((e.queue.operations.map ([·])).map e.scans.toPull).sum +
    e.queue.operations.length ≤
      (e.queue.operations.map e.scanBound).sum := by
    generalize e.queue.operations = ops
    induction ops with
    | nil => exact Nat.le_refl _
    | cons op ops ih =>
      have hbound := e.length_upcoming_le_scanBound op
      simp only [List.map_cons, List.sum_cons, List.length_cons, Scans.toPull] at ih ⊢
      omega
  have hbatches : ((e.registry.batches.map Batch.members).map e.scans.toPull).sum ≤
      ((e.registry.batches.flatMap (·.members)).map e.scanBound).sum := by
    generalize e.registry.batches = batches
    induction batches with
    | nil => exact Nat.le_refl _
    | cons b batches ih =>
      have hbound := e.toPull_le_scanBound b.members
      simp only [List.map_cons, List.sum_cons, List.flatMap_cons, List.map_append,
        List.sum_append] at ih ⊢
      omega
  rw [drainBound_eq]
  unfold load groups
  rw [List.map_append, List.sum_append]
  omega

/-! ## Drains while time passes -/

/-- Let the clocks show the next of some times, as long as there are any. -/
def readNext (e : Engine) : StateM (List Nat) Engine
  | [] => (e, [])
  | reading :: readings => (e.elapse reading, readings)

/-- A drain before whose turns the clocks show these times, one after the other. -/
def drainDuring (readings : List Nat) (turn : Engine → Except Stop Unit × Engine)
    (fuel : Nat) (e : Engine) :
    Except Stop Unit × Engine := (drainIn readNext turn fuel e readings).1

section

variable {turn : Engine → Except Stop Unit × Engine}

theorem drainDuring_succ (readings : List Nat) (fuel : Nat) (e : Engine) :
    drainDuring readings turn (fuel + 1) e =
      if e.remaining = 0 then (.ok (), e)
      else match turn (readNext e readings).1 with
        | (.ok (), e') => drainDuring readings.tail turn fuel e'
        | (.error stop, e') => (.error stop, e') := by
  have hrest : (readNext e readings).2 = readings.tail := by cases readings <;> rfl
  unfold drainDuring
  rw [drainIn]
  split
  · rfl
  · rw [← hrest]
    change ((match turn (readNext e readings).1 with
      | (.ok (), e) => drainIn readNext turn fuel e
      | (.error stop, e) => pure (.error stop, e)) (readNext e readings).2).1 = _
    generalize turn (readNext e readings).1 = result
    obtain ⟨result, e'⟩ := result
    cases result <;> rfl

/-- With no times to show a drain takes none. -/
theorem drainDuring_nil (fuel : Nat) (e : Engine) :
    drainDuring [] turn fuel e = drainBy turn fuel e := by
  induction fuel generalizing e with
  | zero => rfl
  | succ fuel ih =>
    rw [drainDuring_succ, drainBy_succ]
    split
    · rfl
    · show (match turn e with
        | (.ok (), e') => drainDuring [] turn fuel e'
        | (.error stop, e') => (.error stop, e')) = _
      generalize turn e = result
      obtain ⟨result, e'⟩ := result
      cases result with
      | ok _ => exact ih e'
      | error stop => rfl

/-- A drain whose turns all leave less to do, by whatever measure, comes to its
end, if time that passes leaves no more. -/
theorem drainDuring_of_headway {P : Engine → Prop} {measure : Engine → Nat}
    {readings : List Nat}
    (passes : ∀ reading ∈ readings, ∀ e, P e → P (e.elapse reading) ∧
      measure (e.elapse reading) ≤ measure e)
    (headway : ∀ e, P e → e.remaining ≠ 0 → (turn e).1 = .ok () ∧ P (turn e).2 ∧
      measure (turn e).2 < measure e) (fuel : Nat) {e : Engine} (h : P e)
    (enough : measure e ≤ fuel) :
    (drainDuring readings turn fuel e).1 = .ok () ∧
      P (drainDuring readings turn fuel e).2 ∧
      (drainDuring readings turn fuel e).2.remaining = 0 := by
  induction fuel generalizing readings e with
  | zero =>
    refine ⟨rfl, h, ?_⟩
    show e.remaining = 0
    by_contra remains
    obtain ⟨-, -, hless⟩ := headway e h remains
    omega
  | succ fuel ih =>
    rw [drainDuring_succ]
    split
    · rename_i hzero
      exact ⟨rfl, h, hzero⟩
    · rename_i remains
      obtain ⟨hpassed, hle, hremains⟩ : P (readNext e readings).1 ∧
          measure (readNext e readings).1 ≤ measure e ∧
              (readNext e readings).1.remaining ≠ 0 := by
        cases readings with
        | nil => exact ⟨h, Nat.le_refl _, remains⟩
        | cons reading readings =>
          obtain ⟨hpassed, hle⟩ := passes reading List.mem_cons_self e h
          exact ⟨hpassed, hle, remains⟩
      obtain ⟨hok, hnext, hless⟩ := headway _ hpassed hremains
      generalize turn (readNext e readings).1 = result at hok hnext hless
      obtain ⟨result, e'⟩ := result
      subst hok
      exact ih (fun reading hreading => passes reading (List.mem_of_mem_tail hreading))
        hnext (by dsimp only at hless; omega)

theorem drainBy_of_headway {P : Engine → Prop} {measure : Engine → Nat}
    (headway : ∀ e, P e → e.remaining ≠ 0 →
      (turn e).1 = .ok () ∧ P (turn e).2 ∧ measure (turn e).2 < measure e)
    (fuel : Nat) {e : Engine} (h : P e) (enough : measure e ≤ fuel) :
    (drainBy turn fuel e).1 = .ok () ∧ P (drainBy turn fuel e).2 ∧
      (drainBy turn fuel e).2.remaining = 0 := by
  rw [← drainDuring_nil]
  exact drainDuring_of_headway (List.forall_mem_nil _) headway fuel h enough

end

/-- A drain that has come to its end takes no more turns, however many there are. -/
theorem drainBy_of_le {turn : Engine → Except Stop Unit × Engine} {fuel more : Nat}
    (le : fuel ≤ more) {e : Engine} (ended : (drainBy turn fuel e).2.remaining = 0) :
    drainBy turn more e = drainBy turn fuel e := by
  induction fuel generalizing more e with
  | zero =>
    have hzero : e.remaining = 0 := ended
    cases more with
    | zero => rfl
    | succ more =>
      show drainBy turn (more + 1) e = (.ok (), e)
      rw [drainBy_succ, if_pos hzero]
  | succ fuel ih =>
    obtain ⟨more, rfl⟩ :=
      Nat.exists_eq_add_one_of_ne_zero
        (Nat.ne_of_gt (Nat.lt_of_lt_of_le fuel.succ_pos le))
    rw [drainBy_succ] at ended ⊢
    rw [drainBy_succ]
    split
    · rfl
    · rename_i remains
      rw [if_neg remains] at ended
      generalize turn e = result at ended
      obtain ⟨result, e'⟩ := result
      cases result with
      | ok _ => exact ih (Nat.le_of_succ_le_succ le) ended
      | error stop => rfl

/-! ## Turns -/

variable {ex : Expectation} {nodes : Array Node} {count : Nat} {e e' : Engine}

theorem awaitRetry_of_idle (none : e.registry.batches = []) : e.awaitRetry = e := by
  unfold awaitRetry nextRetry?
  rw [none]
  rfl

theorem advanceNext_of_idle (e : Engine) (kept : e.registry.WellKept)
    (none : e.registry.batches = []) :
    e.advanceNext.1 = .ok .none ∧ Receives [] e e.advanceNext.2 := by
  have hturn : e.scheduler.advanceNext e.receiver e.now e.registry e.scans e.metrics =
      { report := .none, registry := e.registry, scans := e.scans,
          metrics := e.metrics } := by
    unfold Scheduler.advanceNext
    rw [kept.window_of_batches none]
    rfl
  unfold advanceNext
  rw [hturn]
  exact ⟨rfl, receives_nil ..⟩

theorem formQuietly_of_going
    (going : ∀ crash, e.formBatch.1 ≠ .error (.crashed crash)) :
    e.formQuietly = (none, e.formBatch.2) := by
  unfold formQuietly
  split
  · rename_i hcrashed
    rw [hcrashed] at going
    exact absurd rfl (going _)
  · rename_i hother
    rw [hother]

/-- Whether the pool takes another task. -/
def HasRoom (e : Engine) : Prop :=
  ∃ pool, e.pool = some pool ∧
    pool.queued < min (pool.workers * e.config.queueTolerance) Config.maxCount

theorem lasting_hasRoom : Lasting HasRoom where
  complete := by
    rintro e d ⟨pool, hpool, hroom⟩
    refine ⟨pool, (e.complete_workers d).1.trans hpool, ?_⟩
    rw [(e.receives_complete d).1.config]
    exact hroom
  alike := by
    rintro e e' halike ⟨pool, hpool, hroom⟩
    refine ⟨pool, halike.pool.trans hpool, ?_⟩
    rw [halike.config]
    exact hroom

/-- An engine that nothing disturbs has given out so many numbers, accounts for
its operations, keeps them on course and can be driven. -/
structure Underway (ex : Expectation) (nodes : Array Node) (count : Nat) (e : Engine) :
    Prop where
  next : e.queue.nextSequence = count
  accounts : e.Accounts
  registered : e.Registered
  faithful : e.Faithful ex nodes
  fluent : e.Fluent
  batchSize : 0 < e.config.batchSize
  stride : 0 < e.config.stride

namespace Underway

theorem move (h : e.Underway ex nodes count) (hmove : Move e e') (fluent : e'.Fluent) :
    e'.Underway ex nodes count where
  next := hmove.carries.next.trans h.next
  accounts := h.accounts.move hmove
  registered := h.registered.move h.accounts.ready hmove
  faithful := h.faithful.move hmove
  fluent := fluent
  batchSize := hmove.carries.config ▸ h.batchSize
  stride := hmove.carries.config ▸ h.stride

theorem receives (h : e.Underway ex nodes count) (rest : Receives [] e e') :
    e'.Underway ex nodes count ∧ e'.load = e.load := by
  obtain ⟨hfluent, hload⟩ := h.fluent.receives rest
  exact ⟨h.move (.idle rest) hfluent, hload⟩

theorem elapse (h : e.Underway ex nodes count) {reading : Nat}
    (clock : (Calendar.instant? (reading - e.ledger.retention)).isSome = true) :
    (e.elapse reading).Underway ex nodes count where
  next := h.next
  accounts :=
    ⟨h.accounts.sound, h.accounts.unlocked, Ledger.obstacle?_of_isSome clock,
      h.accounts.numbers⟩
  registered := h.registered.congr rfl
  faithful :=
    ⟨h.faithful.nodes, h.faithful.sound, h.faithful.waits, h.faithful.feeds,
      h.faithful.delivered,
    h.faithful.outcomes⟩
  fluent := ⟨h.fluent.quiet, h.fluent.runs, h.fluent.due⟩
  batchSize := h.batchSize
  stride := h.stride

/-- A drain forms a batch, or has one that is live, or has failed what waits in
front. -/
theorem formBatch (h : e.Underway ex nodes count) (remains : e.remaining ≠ 0) :
    (∀ crash, e.formBatch.1 ≠ .error (.crashed crash)) ∧
      e.formBatch.2.Underway ex nodes count ∧
      e.formBatch.2.load ≤ e.load ∧
      (e.formBatch.2.registry.batches = [] → e.formBatch.2.load < e.load) := by
  have hmove := e.move_formBatch
  have hforming := e.forming_formBatch
  generalize e.formBatch.1 = result at hforming
  generalize e.formBatch.2 = e' at hforming hmove
  cases hforming with
  | full full rest =>
    obtain ⟨hfluent, hload⟩ := h.fluent.receives rest
    refine ⟨by simp, h.move hmove hfluent, hload.le, fun hnone => ?_⟩
    have hroom := h.registered.kept.isFull_of_batches (rest.registry ▸ hnone)
    rw [hroom] at full
    cases full
  | idle empty =>
    refine ⟨by simp, h.move hmove h.fluent, Nat.le_refl _, fun hnone => ?_⟩
    have hqueue : e.queue.operations = [] := by
      by_contra hsome
      exact Queue.drainBatch_ne_nil hsome h.batchSize empty
    exact absurd (remaining_of_empty hqueue hnone) remains
  | formed form insert rest =>
    obtain ⟨hformed, hless⟩ := h.fluent.formed h.faithful form insert
    obtain ⟨hfluent, hload⟩ := hformed.receives rest
    exact ⟨by simp, h.move hmove hfluent, by omega, fun _ => by omega⟩
  | refused nonempty form some all rest =>
    obtain ⟨hdropped, hless⟩ := h.fluent.dropFront nonempty
    obtain ⟨hfluent, hload⟩ := hdropped.receives rest
    refine ⟨?_, h.move hmove hfluent, by omega, fun _ => by omega⟩
    rw [(all h.accounts.ready).1]
    simp

theorem settle (h : e.Underway ex nodes count) {b : Batch} {others : List Batch}
    (live : e.registry.batches = b :: others) {turn : Turn}
    (onward : Scheduler.Onward e.scheduler b others e.scans turn)
    (hcase : Scheduler.TurnCase e.scheduler e.receiver e.registry e.scans turn) :
    (e.settle turn).Underway ex nodes count ∧ (e.settle turn).load < e.load := by
  obtain ⟨hadvanced, hless⟩ :=
    h.fluent.onward h.faithful h.registered h.stride live onward
  obtain ⟨hfluent, hload⟩ := hadvanced.receives (e.receives_settle turn)
  exact ⟨h.move (move_settle hcase) hfluent, by omega⟩

theorem oldest (h : e.Underway ex nodes count) {b : Batch} {others : List Batch}
    (live : e.registry.batches = b :: others) :
    (∃ id, Batch.Runs id e.scans b.members) ∧ b.locked = false ∧ b.retryAt = none := by
  have hb : b ∈ e.registry.batches := live ▸ List.mem_cons_self
  obtain ⟨op, hop⟩ := List.exists_mem_of_ne_nil _ (h.registered.peopled b hb)
  exact ⟨⟨_,
    h.fluent.runs b.members (List.mem_append_right _ (List.mem_map_of_mem hb)) op hop⟩,
    h.accounts.unlocked b hb, h.fluent.due b hb⟩

/-- If any batch is live, the oldest one is advanced. -/
theorem advanceNext (h : e.Underway ex nodes count) (live : e.registry.batches ≠ []) :
    (∃ report, e.advanceNext.1 = .ok (some report)) ∧
      e.advanceNext.2.Underway ex nodes count ∧
      e.advanceNext.2.load < e.load := by
  obtain ⟨b, others, hbatches⟩ := List.exists_cons_of_ne_nil live
  obtain ⟨⟨id, hruns⟩, hunlocked, hdue⟩ := h.oldest hbatches
  have honward : Scheduler.Onward e.scheduler b others e.scans
      (e.scheduler.advanceNext e.receiver e.now e.registry e.scans e.metrics) := by
    rw [h.accounts.ready]
    exact Scheduler.onward_advanceNext h.registered.kept hbatches hunlocked hdue hruns
  have hsettled := h.settle hbatches honward Scheduler.turnCase_advanceNext
  obtain ⟨report, hreport⟩ := Option.isSome_iff_exists.mp honward.report
  unfold Engine.advanceNext
  dsimp only
  rw [honward.crash, hreport]
  exact ⟨⟨report, rfl⟩, hsettled⟩

/-- So it is if it is asked for by its index. -/
theorem advanceIndex (h : e.Underway ex nodes count) (live : e.registry.batches ≠ []) :
    (∃ report, (e.advanceIndex e.registry.oldest).1 = .ok (some report)) ∧
      (e.advanceIndex e.registry.oldest).2.Underway ex nodes count ∧
      (e.advanceIndex e.registry.oldest).2.load < e.load := by
  obtain ⟨b, others, hbatches⟩ := List.exists_cons_of_ne_nil live
  obtain ⟨⟨id, hruns⟩, hunlocked, hdue⟩ := h.oldest hbatches
  have honward : Scheduler.Onward e.scheduler b others e.scans
      (e.scheduler.advanceIndex e.receiver e.now e.registry.oldest e.registry e.scans
        e.metrics) := by
    rw [h.accounts.ready]
    exact Scheduler.onward_advanceIndex h.registered.kept hbatches hunlocked hdue hruns
  have hsettled := h.settle hbatches honward (Scheduler.turnCase_advanceIndex _)
  obtain ⟨report, hreport⟩ := Option.isSome_iff_exists.mp honward.report
  unfold Engine.advanceIndex
  dsimp only
  rw [honward.crash, hreport]
  exact ⟨⟨report, rfl⟩, hsettled⟩

/-! ## Drains -/

/-- A turn with workers that advance batches on their own. -/
theorem propagateTurn (h : e.Underway ex nodes count) (remains : e.remaining ≠ 0) :
    e.propagateTurn.1 = .ok () ∧ e.propagateTurn.2.Underway ex nodes count ∧
      e.propagateTurn.2.load < e.load := by
  obtain ⟨-, hformed, hle, hidle⟩ := h.formBatch remains
  unfold Engine.propagateTurn
  rw [formQuietly_of_going (h.formBatch remains).1]
  dsimp only
  generalize e.formBatch.2 = e' at hformed hle hidle
  by_cases hlive : e'.registry.batches = []
  · obtain ⟨hnone, hrest⟩ := e'.advanceNext_of_idle hformed.registered.kept hlive
    have hstill : e'.advanceNext.2.awaitRetry = e'.advanceNext.2 :=
      awaitRetry_of_idle (hrest.registry ▸ hlive)
    obtain ⟨hunderway, hload⟩ := hformed.receives hrest
    generalize e'.advanceNext = result at hnone hstill hunderway hload
    obtain ⟨result, e''⟩ := result
    subst hnone
    dsimp only at hstill hload ⊢
    rw [hstill]
    exact ⟨rfl, hunderway, hload ▸ hidle hlive⟩
  · obtain ⟨⟨report, hreport⟩, hunderway, hless⟩ := hformed.advanceNext hlive
    generalize e'.advanceNext = result at hreport hunderway hless
    obtain ⟨result, e''⟩ := result
    subst hreport
    exact ⟨rfl, hunderway, Nat.lt_of_lt_of_le hless hle⟩

/-- With room in the pool the oldest batch is handed to a worker, who advances it. -/
theorem dispatchOne (h : e.Underway ex nodes count) (room : e.HasRoom)
    (live : e.registry.batches ≠ []) :
    e.dispatchOne.1 = .ok true ∧ e.dispatchOne.2.Underway ex nodes count ∧
      e.dispatchOne.2.load < e.load ∧ e.dispatchOne.2.HasRoom := by
  obtain ⟨pool, hpool, hroom⟩ := room
  obtain ⟨b, others, hbatches⟩ := List.exists_cons_of_ne_nil live
  obtain ⟨-, hunlocked, hdue⟩ := h.oldest hbatches
  have hnext : e.scheduler.nextDispatchable e.now e.registry = some e.registry.oldest :=
    Scheduler.nextDispatchable_eq h.registered.kept hbatches hunlocked hdue
  unfold Engine.dispatchOne
  rw [hpool]
  dsimp only
  rw [if_neg (Nat.not_le.mpr hroom), hnext]
  dsimp only
  have hrest : Receives [] e
      { e with pool := some pool.enqueue.runOne, metrics := e.metrics.countDispatched } :=
    ⟨rfl, rfl, rfl, rfl, rfl, rfl, rfl, fun _ ho => .inl ho⟩
  have hroom' : HasRoom
      { e with pool := some pool.enqueue.runOne, metrics := e.metrics.countDispatched } :=
    ⟨pool, congrArg some pool.runOne_enqueue, hroom⟩
  obtain ⟨hunderway, hload⟩ := h.receives hrest
  obtain ⟨⟨report, hreport⟩, hadvanced, hless⟩ := hunderway.advanceIndex live
  have hlasts := lasting_hasRoom.advanceIndex e.registry.oldest hroom'
  rw [hload] at hless
  dsimp only at hreport hadvanced hless
  generalize Engine.advanceIndex _ _ = result at hreport hadvanced hless hlasts ⊢
  obtain ⟨result, e'⟩ := result
  subst hreport
  exact ⟨rfl, hadvanced, hless, hlasts⟩

theorem dispatchOne_of_idle (h : e.Underway ex nodes count) (room : e.HasRoom)
    (none : e.registry.batches = []) : e.dispatchOne = (.ok false, e) := by
  obtain ⟨pool, hpool, hroom⟩ := room
  have hnext : e.scheduler.nextDispatchable e.now e.registry = .none := by
    unfold Scheduler.nextDispatchable
    rw [h.registered.kept.window_of_batches none]
    rfl
  unfold Engine.dispatchOne
  rw [hpool]
  dsimp only
  rw [if_neg (Nat.not_le.mpr hroom), hnext]

/-- A turn with a dispatcher. -/
theorem dispatchTurn (h : e.Underway ex nodes count) (room : e.HasRoom)
    (remains : e.remaining ≠ 0) :
    e.dispatchTurn.1 = .ok () ∧
      (e.dispatchTurn.2.Underway ex nodes count ∧ e.dispatchTurn.2.HasRoom) ∧
      e.dispatchTurn.2.load < e.load := by
  obtain ⟨-, hformed, hle, hidle⟩ := h.formBatch remains
  have hroom := lasting_hasRoom.formBatch room
  unfold Engine.dispatchTurn
  rw [formQuietly_of_going (h.formBatch remains).1]
  dsimp only
  generalize e.formBatch.2 = e' at hformed hle hidle hroom
  by_cases hlive : e'.registry.batches = []
  · rw [hformed.dispatchOne_of_idle hroom hlive]
    dsimp only
    rw [awaitRetry_of_idle hlive]
    exact ⟨rfl, ⟨hformed, hroom⟩, hidle hlive⟩
  · obtain ⟨hhanded, hunderway, hless, hroom'⟩ := hformed.dispatchOne hroom hlive
    generalize e'.dispatchOne = result at hhanded hunderway hless hroom'
    obtain ⟨result, e''⟩ := result
    subst hhanded
    exact ⟨rfl, ⟨hunderway, hroom'⟩, Nat.lt_of_lt_of_le hless hle⟩

end Underway

end Engine

end Lockstep
