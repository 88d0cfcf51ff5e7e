import Lockstep.Proofs.Batch.Verdict
import Lockstep.Proofs.Engine.Drivable
set_option autoImplicit false

/-!
# A stepped operation spoils no batch

Whether operations go together is decided twice: the queue keeps those apart
that were ever stepped, and a scan that was ever pulled cannot be shared.  A
step that fails to read counts as a step and not as a pull, so the two differ,
but only one way round: an operation that was never stepped has a scan of its
own that was never pulled.  Hence a run that the queue hands out is refused for
the kinds of its scans alone.
-/

namespace Lockstep

/-! ## Runs that the queue hands out -/

/-- Two of the operations read scans of different kinds. -/
def Batch.Mixed (ops : List Operation) : Prop :=
  ∃ op ∈ ops, ∃ other ∈ ops, op.pipeline.kind ≠ other.pipeline.kind

theorem Batch.mixed_of_misfit? {ops : List Operation} {f : Failure}
    (h : misfit? ops = some f) :
    ∃ op ∈ ops, ∃ other ∈ ops, op.pipeline.kind ≠ other.pipeline.kind ∧
      f = .incompatibleScan op.pipeline.kind.text other.pipeline.kind.text := by
  cases ops with
  | nil => cases h
  | cons first others =>
    obtain ⟨other, hfound, rfl⟩ := Option.map_eq_some_iff.mp h
    refine ⟨first, List.mem_cons_self, other,
      List.mem_cons_of_mem _ (List.mem_of_find?_eq_some hfound), ?_, rfl⟩
    have hkind := List.find?_some hfound
    exact Ne.symm (of_decide_eq_true hkind)

theorem Batch.not_mixed_of_misfit? {ops : List Operation} (h : misfit? ops = none) :
    ¬Mixed ops := by
  rintro ⟨op, hop, other, hother, hne⟩
  cases ops with
  | nil => cases hop
  | cons first others =>
    have hothers := List.find?_eq_none.mp (Option.map_eq_none_iff.mp h)
    have hkind : ∀ op ∈ first :: others, op.pipeline.kind = first.pipeline.kind := by
      refine List.forall_mem_cons.mpr ⟨rfl, fun op hop => ?_⟩
      simpa using hothers op hop
    exact hne ((hkind op hop).trans (hkind other hother).symm)

namespace Queue

theorem batchSize_le {max : Nat} (hmax : 0 < max) (ops : List Operation) :
    batchSize max ops ≤ max := by
  unfold batchSize
  split
  · exact Nat.zero_le _
  · split
    · exact hmax
    · exact (List.takeWhile_prefix _).length_le.trans (List.length_take_le _ _)

theorem length_drainBatch_le {max : Nat} (hmax : 0 < max) (q : Queue) :
    (q.drainBatch max).1.length ≤ max :=
  (List.length_take_le _ _).trans (batchSize_le hmax q.operations)

end Queue

/-! ## Operations that wait -/

namespace Operation

/-- If the operation was never stepped then its scan was never pulled, and it
has not found its end. -/
def IsUntouched (s : Scans) (op : Operation) : Prop :=
  op.isStarted = false → (s.cursor op.pipeline.cursor).pulls = 0 ∧ op.isFinished = false

theorem IsUntouched.congr {s s' : Scans} {op : Operation} (h : op.IsUntouched s)
    (cursor : s'.cursor op.pipeline.cursor = s.cursor op.pipeline.cursor) :
    op.IsUntouched s' := by
  unfold IsUntouched
  rw [cursor]
  exact h

theorem IsUntouched.isStarted_step {s : Scans} {op : Operation} (h : op.IsUntouched s)
    (cached : Bool) :
    (op.step cached s).2.1.isStarted = true := by
  refine Operation.isStarted_step ?_ cached s
  cases hfresh : op.isStarted with
  | true => exact .inl rfl
  | false => exact .inr (h hfresh).2

theorem isUntouched_openScan (plan : Plan) (s : Scans) (sequence : Nat)
    (query : String) :
    IsUntouched (plan.openScan s).2 ⟨sequence, query, (plan.openScan s).1⟩ := fun _ =>
  have hunstarted := unstarted_openScan plan s sequence query
  ⟨hunstarted.pristine.pulls, hunstarted.finished⟩

end Operation

namespace Engine

variable {e e' : Engine}

/-- Whatever waits can be grouped: each operation that waits and each batch has
a scan of its own, and no scan of an operation that waits was pulled before the
operation was stepped. -/
structure Groupable (e : Engine) : Prop where
  sound : e.registry.Sound
  feeds : e.scans.Feeds .any e.groups
  untouched : ∀ op ∈ e.queue.operations, op.IsUntouched e.scans

namespace Groupable

theorem receives (h : e.Groupable) {taken : List Delivery}
    (rest : Receives taken e e') : e'.Groupable where
  sound := by
    rw [rest.registry]
    exact h.sound
  feeds := feeds_receives h.feeds rest
  untouched := by
    rw [rest.queue, rest.scans]
    exact h.untouched

theorem dropQueue (h : e.Groupable) {queue : Queue}
    (sub : queue.operations.Sublist e.queue.operations) :
    Groupable { e with queue := queue } where
  sound := h.sound
  feeds := feeds_dropQueue h.feeds sub
  untouched := fun op hop => h.untouched op (sub.subset hop)

theorem dropFront (h : e.Groupable) : Groupable { e with queue := e.front.2 } :=
  h.dropQueue e.sublist_front

theorem formed (h : e.Groupable) {name : String} {b : Batch} {index : Nat}
    {r : Registry} (form : Batch.form name e.front.1 e.scans = .ok b)
    (insert : e.registry.insert? b = some (index, r)) :
    Groupable { e with queue := e.front.2, registry := r } :=
  ⟨(Registry.batches_insert? h.sound insert).1,
    feeds_any_formed h.feeds h.sound form insert, h.dropFront.untouched⟩

/-- A step of an operation that waits counts as one, and pulls no scan but its own. -/
theorem stepped (h : e.Groupable) {index : Nat} {op op' : Operation} {queue : Queue}
    {s : Scans} {result : Except Interruption StepResult}
    (took : e.queue.takeAt? index = some (op, queue))
    (step : op.step false e.scans = (result, op', s)) :
    Groupable { e with queue := queue.reinsert index op', scans := s } ∧
      Groupable { e with queue := queue, scans := s } := by
  obtain ⟨htook, -⟩ := Queue.perm_takeAt? took
  have hop : op ∈ e.queue.operations := htook.subset List.mem_cons_self
  have hstarted := (h.untouched op hop).isStarted_step false
  rw [step] at hstarted
  obtain ⟨hmoves, hback, hleft⟩ := feeds_any_stepped h.feeds took step
  have hothers : ∀ other ∈ queue.operations, other.IsUntouched s := fun other hother =>
    (h.untouched other (htook.subset (List.mem_cons_of_mem _ hother))).congr
      (cursor_stepped h.feeds took hmoves hother)
  refine ⟨⟨h.sound, hback, ?_⟩, ⟨h.sound, hleft, hothers⟩⟩
  intro other hother
  rcases List.mem_cons.mp ((queue.perm_reinsert index op').subset hother)
    with rfl | hother
  · intro fresh
    rw [hstarted] at fresh
    cases fresh
  · exact hothers other hother

theorem advanced (h : e.Groupable) {index : Nat} {b : Batch} {r : Registry}
    (live : e.registry.get? index = some b)
    (resettled : e.registry.Resettled index
      (e.scheduler.guardedAdvance e.receiver b e.scans).batch r) :
    Groupable { e with
      registry := r
      scans := (e.scheduler.guardedAdvance e.receiver b e.scans).scans } := by
  obtain ⟨hfeeds, -, hcursor, -⟩ :=
    (h.feeds.perm (groups_of_get? live)).guardedAdvance e.scheduler e.receiver
  refine ⟨resettled.sound, feeds_resettled resettled hfeeds, ?_⟩
  intro op hop
  refine (h.untouched op hop).congr (hcursor [op] ?_ op (List.mem_singleton_self op))
  exact List.mem_append_left _ (List.mem_map_of_mem hop)

theorem drained (h : e.Groupable) :
    Groupable { e with registry := e.registry.drain.2 } := by
  obtain ⟨-, hsound, -⟩ := Registry.batches_drain h.sound
  exact ⟨hsound, feeds_drained h.feeds h.sound, h.untouched⟩

theorem accepted (h : e.Groupable) (query : String) (plan : Plan) :
    Groupable { e with
      queue := (e.queue.enqueue query (plan.openScan e.scans).1).2
      scans := (plan.openScan e.scans).2 } := by
  refine ⟨h.sound, feeds_any_accepted h.feeds query plan, ?_⟩
  refine List.forall_mem_append.mpr ⟨fun other hother => ?_,
    List.forall_mem_singleton.mpr (Operation.isUntouched_openScan plan e.scans _ query)⟩
  have hopen : e.scans.IsOpen other.pipeline.cursor :=
    (h.feeds.onCourse (List.mem_append_left _ (List.mem_map_of_mem hother))
      (List.mem_singleton_self other)).1
  exact (h.untouched other hother).congr (Scans.cursor_openCursor hopen plan.source)

/-- After every move what waits can still be grouped. -/
theorem move (h : e.Groupable) (hmove : Move e e') : e'.Groupable := by
  cases hmove with
  | idle rest => exact h.receives rest
  | formed form insert rest => exact (h.formed form insert).receives rest
  | refused form some all rest => exact h.dropFront.receives rest
  | stepped took step going unfinished rest =>
    exact (h.stepped took step).1.receives rest
  | completed took step rest => exact (h.stepped took step).2.receives rest
  | failed took step rest => exact (h.stepped took step).2.receives rest
  | advanced live registry emptied rest =>
    exact (h.advanced live (registry h.sound)).receives rest
  | abandonedQueue some all rest =>
    exact (h.dropQueue (List.nil_sublist _)).receives rest
  | abandonedBatches some all rest => exact h.drained.receives rest

theorem moves (h : e.Groupable) (hmoves : Moves e e') : e'.Groupable := by
  induction hmoves with
  | refl => exact h
  | tail _ hmove ih => exact ih.move hmove

/-- What waits can be grouped after every request, whatever its scans and
operators do and however it ends. -/
theorem request (h : e.Groupable) (request : Request) :
    (e.request request).Groupable := by
  have hcase := e.requestCase request
  generalize e.request request = e' at hcase
  cases hcase with
  | accepted rest => exact (h.accepted _ _).receives rest
  | moved moves => exact h.moves moves
  | lost loss =>
    cases loss with
    | lost took step rest => exact (h.stepped took step).2.receives rest
  | ticked time => exact ⟨h.sound, h.feeds, h.untouched⟩
  | disturbed d => exact ⟨h.sound, h.feeds.disturb d, h.untouched⟩

theorem requestAll (h : e.Groupable) (requests : List Request) :
    (e.requestAll requests).Groupable := by
  induction requests generalizing e with
  | nil => exact h
  | cons request requests ih => exact ih (h.request request)

theorem fresh (config : Config) (names : Names) (graph : Graph) :
    (Engine.fresh config names graph).Groupable :=
  ⟨(Registry.wellKept_ofCapacity _).sound, .nil, List.forall_mem_nil _⟩

theorem front_cases (h : e.Groupable) :
    (∃ op, e.front.1 = [op]) ∨
      ∀ op ∈ e.front.1, op.isStarted = false ∧
      (e.scans.cursor op.pipeline.cursor).pulls = 0 := by
  refine (e.queue.drainBatch_cases e.config.batchSize).imp_right fun hfresh op hop => ?_
  exact ⟨hfresh op hop, (h.untouched op (e.mem_front (.inl hop)) (hfresh op hop)).1⟩

/-- A run is refused exactly for the kinds of its scans. -/
theorem misfit?_front (h : e.Groupable) (name : String) (some : e.front.1 ≠ []) :
    Batch.misfit? e.front.1 = match Batch.form name e.front.1 e.scans with
      | .ok _ => none
      | .error refusal => refusal.failure := by
  rcases h.front_cases with ⟨op, hsingle⟩ | hfresh
  · rw [hsingle]
    rfl
  · exact Batch.misfit?_of_form some fun op hop => (hfresh op hop).2

end Groupable

/-! ## Batches that are formed -/

/-- An index is given only for a batch that could be formed. -/
theorem exists_form_of_formBatch (e : Engine) (index : Nat)
    (h : e.formBatch.1 = .ok (some index)) :
    ∃ name b, Batch.form name e.front.1 e.scans = .ok b := by
  have hfront : e.queue.drainBatch e.config.batchSize = (e.front.1, e.front.2) := rfl
  unfold formBatch at h
  rw [hfront] at h
  dsimp only at h
  split at h
  · cases h
  · split at h
    · cases h
    · split at h
      · rename_i b hform
        exact ⟨_, b, hform⟩
      · split at h <;> cases h

/-- What becomes of the run that was taken from the front of the queue to form a
batch: the result, and the engine afterwards. -/
structure Formation (e : Engine) (run : List Operation)
    (result : Except Stop (Option Nat)) (e' : Engine) :
    Prop where
  /-- the operations behind the run stay as they are -/
  front : run ++ e'.queue.operations = e.queue.operations
  length : run.length ≤ e.config.batchSize
  /-- a run is refused if and only if its scans are of two kinds -/
  refused : e.receiver = none →
    ((∃ error, result = .error (.error error) ∧ error.code = "AERO_INCOMPATIBLE_SCAN") ↔
      Batch.Mixed run)
  /-- the reason names two kinds of the run, and nothing else -/
  reason : e.receiver = none → ∀ f, result = .error (.error (.query f)) →
    ∃ op ∈ run, ∃ other ∈ run, op.pipeline.kind ≠ other.pipeline.kind ∧
      f = .incompatibleScan op.pipeline.kind.text other.pipeline.kind.text
  /-- every other run is registered -/
  registers : e.receiver = none →
    ((∃ index, result = .ok (some index)) ↔ run ≠ [] ∧ ¬Batch.Mixed run)
  /-- the batch has the operations of the run, in their order, and a started
  one is there alone -/
  registered : ∀ index, result = .ok (some index) → ∃ b,
    e'.registry.get? index = some b ∧
    List.Forall₂ Batch.Refed run b.members ∧ ∀ op ∈ b.members, op.isStarted = true →
    b.members = [op]

/-- Nothing becomes of a run without operations. -/
theorem Formation.nothing {result : Except Stop (Option Nat)}
    (queue : e'.queue = e.queue)
    (refused : ∀ error, result = .error (.error error) → ∃ capacity,
      error = .registryFull capacity) (registers : ∀ index, result ≠ .ok (some index)) :
    Formation e [] result e' where
  front := by rw [queue, List.nil_append]
  length := Nat.zero_le _
  refused := by
    intro _
    constructor
    · rintro ⟨error, hresult, hcode⟩
      obtain ⟨capacity, rfl⟩ := refused error hresult
      exact absurd (show "AERO_REGISTRY_FULL" = "AERO_INCOMPATIBLE_SCAN" from hcode) (by decide)
    · rintro ⟨op, hop, -⟩
      cases hop
  reason := by
    intro _ f hresult
    obtain ⟨capacity, hfull⟩ := refused _ hresult
    cases hfull
  registers := fun _ =>
    ⟨fun ⟨index, hindex⟩ => absurd hindex (registers index), fun h => absurd rfl h.1⟩
  registered := fun index hindex => absurd hindex (registers index)

namespace Groupable

/-- A started operation is alone in the batch that is formed of its run. -/
theorem alone (h : e.Groupable) {b : Batch}
    (refed : List.Forall₂ Batch.Refed e.front.1 b.members) {op : Operation}
    (hop : op ∈ b.members) (started : op.isStarted = true) : b.members = [op] := by
  rcases h.front_cases with ⟨first, hsingle⟩ | hfresh
  · rw [hsingle] at refed
    obtain ⟨only, none, -, hnone, hmembers⟩ := List.forall₂_cons_left_iff.mp refed
    rw [List.forall₂_nil_left_iff.mp hnone] at hmembers
    rw [hmembers] at hop ⊢
    rw [List.mem_singleton.mp hop]
  · obtain ⟨op₀, hop₀, id, cached, rfl⟩ := Batch.exists_refed refed hop
    exact absurd ((hfresh op₀ hop₀).1.symm.trans started) Bool.false_ne_true

/-- A run that is registered is of one kind. -/
theorem formation_formed (h : e.Groupable) (batchSize : 0 < e.config.batchSize)
    {name : String} {b : Batch} {index : Nat} {r : Registry}
    (form : Batch.form name e.front.1 e.scans = .ok b)
    (insert : e.registry.insert? b = some (index, r))
    (rest : Receives [] { e with queue := e.front.2, registry := r } e') :
    Formation e e.front.1 (.ok (some index)) e' := by
  have hsome : e.front.1 ≠ [] := by
    intro hempty
    rw [hempty] at form
    cases form
  have hmisfit := h.misfit?_front name hsome
  rw [form] at hmisfit
  have hsame : ¬Batch.Mixed e.front.1 := Batch.not_mixed_of_misfit? hmisfit
  obtain ⟨-, -, hget, -⟩ := Registry.get?_of_insert? h.sound insert
  obtain ⟨hrefed, -⟩ := Batch.refed_of_form_ok form
  refine ⟨rest.queue ▸ e.front_append, e.queue.length_drainBatch_le batchSize, ?_, ?_,
    fun _ => ⟨fun _ => ⟨hsome, hsame⟩, fun _ => ⟨index, rfl⟩⟩, ?_⟩
  · refine fun _ => ⟨?_, fun hmixed => absurd hmixed hsame⟩
    rintro ⟨error, hresult, -⟩
    cases hresult
  · intro _ f hresult
    cases hresult
  · intro _ hindex
    cases hindex
    exact ⟨b, (congrArg (·.get? index) rest.registry).trans hget, hrefed,
      fun op => h.alone hrefed⟩

/-- A run that is refused is of two kinds. -/
theorem formation_refused (h : e.Groupable) (batchSize : 0 < e.config.batchSize)
    {name : String} {f : Failure} {operations : List Operation} {taken : List Delivery}
    {result : Except Stop (Option Nat)} (some : e.front.1 ≠ [])
    (form : Batch.form name e.front.1 e.scans = .error ⟨f, operations⟩)
    (given : e.receiver = none → result = .error (.error (.query f)))
    (none : ∀ index, result ≠ .ok (Option.some index))
    (rest : Receives taken { e with queue := e.front.2 } e') :
    Formation e e.front.1 result e' := by
  have hmisfit := h.misfit?_front name some
  rw [form] at hmisfit
  obtain ⟨op, hop, other, hother, hne, hf⟩ := Batch.mixed_of_misfit? hmisfit
  have hmixed : Batch.Mixed e.front.1 := ⟨op, hop, other, hother, hne⟩
  have hcode : (EngineError.query f).code = "AERO_INCOMPATIBLE_SCAN" :=
    congrArg (fun f => (EngineError.query f).code) hf
  refine ⟨rest.queue ▸ e.front_append, e.queue.length_drainBatch_le batchSize,
    fun hready => ⟨fun _ => hmixed, fun _ => ⟨_, given hready, hcode⟩⟩, ?_,
    fun _ =>
      ⟨fun ⟨index, hindex⟩ => absurd hindex (none index),
        fun hsame => absurd hmixed hsame.2⟩,
    fun index hindex => absurd hindex (none index)⟩
  intro hready f' hresult
  rw [given hready] at hresult
  cases hresult
  exact ⟨op, hop, other, hother, hne, hf⟩

/-- The kinds of a run decide what becomes of it. -/
theorem formation (h : e.Groupable) (batchSize : 0 < e.config.batchSize) :
    ∃ run, Formation e run e.formBatch.1 e.formBatch.2 := by
  have hforming := e.forming_formBatch
  have hregistered := e.exists_form_of_formBatch
  generalize e.formBatch.1 = result at hforming hregistered
  generalize e.formBatch.2 = e' at hforming
  cases hforming with
  | full full rest =>
    exact ⟨[],
      .nothing rest.queue (fun error herror => by cases herror; exact ⟨_, rfl⟩) nofun⟩
  | idle empty => exact ⟨[], .nothing rfl nofun nofun⟩
  | formed form insert rest => exact ⟨_, h.formation_formed batchSize form insert rest⟩
  | refused some form most all rest =>
    refine ⟨_, h.formation_refused batchSize some form
      (fun hready => (all hready).1) ?_ rest⟩
    intro index hindex
    obtain ⟨name, b, hform⟩ := hregistered index hindex
    have hmisfit := h.misfit?_front name some
    rw [h.misfit?_front _ some, form, hform] at hmisfit
    cases hmisfit

end Groupable

theorem config_request (e : Engine) (request : Request) :
    (e.request request).config = e.config := by
  have hcase := e.requestCase request
  generalize e.request request = e' at hcase
  cases hcase with
  | accepted rest => exact rest.config
  | moved moves => exact (carries_of_moves moves).config
  | lost loss =>
    cases loss with
    | lost took step rest => exact rest.config
  | ticked time => rfl
  | disturbed d => rfl

theorem config_requestAll (e : Engine) (requests : List Request) :
    (e.requestAll requests).config = e.config := by
  induction requests generalizing e with
  | nil => rfl
  | cons request requests ih =>
    exact (ih (e.request request)).trans (e.config_request request)

/-- Whatever was asked of an engine before, a batch that it forms is refused if
and only if it drained scans of two kinds; every batch that it registers has
operations from the front of the queue, at most so many as a batch may have, and
a started one alone.  Its deliveries are received unless the ledger's clock was
set out of reach. -/
theorem formation_requestAll {config : Config} {names : Names} {graph : Graph}
    {start : Engine} (made : Engine.create config names graph = .ok start)
    (requests : List Request) :
    let e := start.requestAll requests
    e.config = config ∧
      ((∀ time, .call (.tick time) ∈ requests →
        (Calendar.instant? (time - config.retentionMs)).isSome = true) →
          e.receiver = none) ∧
      ∃ run, Formation e run e.formBatch.1 e.formBatch.2 := by
  intro e
  have hconfig : e.config = start.config := config_requestAll _ requests
  obtain ⟨hdrivable, hretention⟩ := Drivable.create made
  have hready := hdrivable.requestAll requests
  rw [hretention] at hready
  have hbatch : 0 < e.config.batchSize := by
    rw [hconfig]
    exact hdrivable.batchSize
  obtain ⟨-, rfl⟩ := create_eq_ok_iff.mp made
  exact ⟨hconfig, fun clock => (hready clock).1.ready,
    ((Groupable.fresh config names graph).requestAll requests).formation hbatch⟩

/-- Three operations wait, the last of another kind, and the first was stepped
when its scan could not be read. -/
def unreadFirst : List Request :=
  let accept (kind : ScanKind) : Request :=
    .call (.execute (fun _ => .ok ⟨kind, .graph kind 0, []⟩) "rows")
  [.call (.disturb (.inject 1)), accept .allNodes, accept .allNodes,
    accept (.label "Robot"), .call (.propagateAt 0)]

/-- The first is alone in its batch although its scan was never pulled, and then
the others are refused. -/
theorem formation_requestAll_unread :
    ∃ start, create { registryCapacity := 2 } default default = .ok start ∧
    (let e := start.requestAll unreadFirst;
      ∃ b op, e.formBatch.2.registry.get? 0 = some b ∧ b.members = [op] ∧
        op.isStarted = true ∧ (e.scans.cursor op.pipeline.cursor).pulls = 0) ∧
      let e := start.requestAll (unreadFirst ++ [.call .formBatch]);
      e.receiver = none ∧ ∃ run, Formation e run e.formBatch.1 e.formBatch.2 ∧
        Batch.Mixed run := by
  let start := fresh { registryCapacity := 2 } default default
  have hmade : create { registryCapacity := 2 } default default = .ok start :=
    create_eq_ok_iff.mpr ⟨by decide +kernel, rfl⟩
  refine ⟨start, hmade, ?_, ?_⟩
  · obtain ⟨-, -, run, hrun⟩ := formation_requestAll hmade unreadFirst
    obtain ⟨b, hlive, -, halone⟩ := hrun.registered 0 (by decide +kernel)
    have hstarted :
        ((start.requestAll unreadFirst).formBatch.2.registry.get? 0).map (fun b =>
        b.members.any fun op => op.isStarted &&
          ((start.requestAll unreadFirst).scans.cursor op.pipeline.cursor).pulls == 0) =
              some true := by
      decide +kernel
    rw [hlive] at hstarted
    obtain ⟨op, hop, hstarted⟩ := List.any_eq_true.mp (Option.some.inj hstarted)
    rw [Bool.and_eq_true, beq_iff_eq] at hstarted
    exact ⟨b, op, hlive, halone op hop hstarted.1, hstarted⟩
  · obtain ⟨-, hready, run, hrun⟩ :=
      formation_requestAll hmade (unreadFirst ++ [.call .formBatch])
    have hreceiver := hready fun time htick => by simp [unreadFirst] at htick
    refine ⟨hreceiver, run, hrun, (hrun.refused hreceiver).mp ?_⟩
    exact ⟨.query (.incompatibleScan "all-nodes" "label(Robot)"),
      by decide +kernel, rfl⟩

end Engine

end Lockstep
