import Lockstep.Proofs.Batch.Retry
import Lockstep.Proofs.Batch.Twin
set_option autoImplicit false

/-!
# Runs side by side

The run of a batch over a patient scan is set beside the run of the same batch
over a quiet one.  A completed round and an aborted one that may be tried again
keep the two going on in the same way, and a run over a quiet scan comes to the
same whether its rounds are advanced in one call or in many.
-/

namespace Lockstep

/-- The outcome but for the count of its steps. -/
def Outcome.unstepped (o : Outcome) : Outcome := { o with steps := 0 }

namespace BatchRun

open Operation (Paired)

variable {id : CursorId} {maxRetries : UInt32} {r q : BatchRun}

/-- Two runs have delivered the same outcomes but for counts of steps, have
the same members with the same outlook, and have completed as many rounds
and as many pulls. -/
structure Agrees (id : CursorId) (r q : BatchRun) : Prop where
  outcomes : r.deliveries.map (·.outcome.unstepped) =
    q.deliveries.map (·.outcome.unstepped)
  members : r.batch.members.map Operation.outlook =
    q.batch.members.map Operation.outlook
  rounds : r.batch.rounds = q.batch.rounds
  pulls : (r.scans.cursor id).pulls = (q.scans.cursor id).pulls

/-- Two runs that go on in the same way, the one over a patient scan and the
other over a quiet one. -/
structure Twin (id : CursorId) (r q : BatchRun) : Prop where
  alike : r.scans.Alike id q.scans
  members : List.Forall₂ (Paired Operation.outlook id) r.batch.members q.batch.members
  rounds : r.batch.rounds = q.batch.rounds
  outcomes : r.deliveries.map (·.outcome.unstepped) =
    q.deliveries.map (·.outcome.unstepped)

theorem map_eq_of_forall₂ {α β : Type} {rel : α → α → Prop} {f : α → β}
    (hf : ∀ a a', rel a a' → f a = f a') {items items' : List α}
    (h : List.Forall₂ rel items items') : items.map f = items'.map f := by
  induction h with
  | nil => rfl
  | cons hitem _ ih => rw [List.map_cons, List.map_cons, hf _ _ hitem, ih]

theorem Twin.agrees (h : Twin id r q) : Agrees id r q :=
  ⟨h.outcomes, map_eq_of_forall₂ (fun _ _ hop => hop.same) h.members, h.rounds,
    h.alike.pulls⟩

theorem unstepped_eq {op op' : Operation} (h : Paired Operation.essence id op op') :
    (Delivery.outcome ⟨op, .completed⟩).unstepped =
      (Delivery.outcome ⟨op', .completed⟩).unstepped := by
  obtain ⟨hsequence, hquery, hpipeline⟩ := Operation.mk.inj h.same
  have hrows : op.pipeline.essence.rows = op'.pipeline.essence.rows := by rw [hpipeline]
  have hrows' : op.pipeline.rows = op'.pipeline.rows := hrows
  unfold Outcome.unstepped Delivery.outcome
  dsimp only
  rw [hsequence, hquery, hrows']

theorem forall₂_filter {p : Bool → Bool} {ops ops' : List Operation}
    (h : List.Forall₂ (Paired Operation.essence id) ops ops') :
    List.Forall₂ (Paired Operation.essence id) (ops.filter fun op => p op.isFinished)
      (ops'.filter fun op => p op.isFinished) := by
  refine List.rel_filter ?_ h
  intro op op' hop
  dsimp only
  rw [hop.isFinished]

/-! ## Rounds side by side -/

theorem Twin.completed (h : Twin id r q) {members members' : List Operation}
    {s₁ q₁ : Scans} (alike : s₁.Alike id q₁)
    (agree : List.Forall₂ (Paired Operation.essence id) members members') :
    Twin id (r.completed members s₁) (q.completed members' q₁) where
  alike := alike
  members := (forall₂_filter (p := not) agree).imp fun _ _ hop => hop.outlook
  rounds := congrArg (· + 1) h.rounds
  outcomes := by
    unfold BatchRun.completed Batch.completions
    dsimp only
    rw [List.map_append, List.map_append, h.outcomes, List.map_map, List.map_map]
    exact congrArg _ (map_eq_of_forall₂ (fun _ _ hop => unstepped_eq hop)
      (forall₂_filter (p := fun finished => finished) agree))

theorem Twin.aborted (h : Twin id r q) {members : List Operation} {s₁ : Scans}
    (alike : s₁.Alike id q.scans)
    (kept : List.Forall₂ (Paired Operation.outlook id) members q.batch.members) :
    Twin id (r.aborted members s₁) q := ⟨alike, kept, h.rounds, h.outcomes⟩

theorem Twin.disturb (h : Twin id r q) (d : Disturbance) :
    Twin id (r.answer (.disturb d)) q :=
  ⟨h.alike.disturb d, h.members, h.rounds, h.outcomes⟩

theorem Twin.members_eq_nil (h : Twin id r q) :
    r.batch.members = [] ↔ q.batch.members = [] := by
  have hlength := h.members.length_eq
  rw [← List.length_eq_zero_iff, ← List.length_eq_zero_iff, hlength]

/-! ## Runs that do not fail -/

theorem Twin.refl (h : Twin id r q) : Twin id q q where
  alike := ⟨h.alike.quiet.isOpen, h.alike.quiet.isPatient, h.alike.quiet, rfl, rfl, rfl⟩
  members := by
    have hmembers := h.members
    generalize r.batch.members = ops at hmembers
    generalize q.batch.members = ops' at hmembers
    induction hmembers with
    | nil => exact .nil
    | cons hop _ ih => exact .cons hop.refl ih
  rounds := rfl
  outcomes := rfl

theorem Twin.exists_completed (h : Twin id q q) :
    ∃ members s', Batch.round q.batch.members q.scans = (.completed, members, s') ∧
      Twin id (q.completed members s') (q.completed members s') := by
  have hround := Batch.roundTwin_round h.alike h.members
  generalize hresult : Batch.round q.batch.members q.scans = result at hround
  cases hround with
  | completed alike agree => exact ⟨_, _, rfl, h.completed alike agree⟩
  | aborted failed alike kept =>
    obtain ⟨⟨progress, hpull⟩, -⟩ := h.alike.quiet.pull
    rw [hpull] at failed
    cases failed

/-- Over a quiet scan an advance stays its own twin, and goes on where an
advance has stopped. -/
theorem Twin.answer_advance (h : Twin id q q) (maxRetries : UInt32) (stride : Nat) :
    Twin id (q.answer (.advance stride maxRetries))
      (q.answer (.advance stride maxRetries)) ∧
      ∀ more, q.answer (.advance (stride + more) maxRetries) =
        (q.answer (.advance stride maxRetries)).answer (.advance more maxRetries) := by
  induction stride generalizing q with
  | zero =>
    rw [(answer_advance_idle _ (.inl rfl)).1]
    exact ⟨h, fun more => by rw [Nat.zero_add]⟩
  | succ stride ih =>
    by_cases hmembers : q.batch.members = []
    · rw [(answer_advance_idle _ (.inr hmembers)).1]
      refine ⟨h, ?_⟩
      intro more
      rw [(answer_advance_idle _ (.inr hmembers)).1,
        (answer_advance_idle _ (.inr hmembers)).1]
    · obtain ⟨members, s', hround, hcompleted⟩ := h.exists_completed
      obtain ⟨htwin, hmore⟩ := ih hcompleted
      rw [(answer_advance_completed _ _ hmembers hround).1]
      refine ⟨htwin, ?_⟩
      intro more
      rw [Nat.add_right_comm, (answer_advance_completed _ _ hmembers hround).1]
      exact hmore more

/-- Over a quiet scan advances of any strides come to one advance of
all their rounds. -/
theorem Twin.answerAll_advances (h : Twin id q q) (maxRetries : UInt32)
    (strides : List Nat) :
    q.answerAll (strides.map fun stride => .advance stride maxRetries) =
      q.answer (.advance (strides.foldr (· + ·) 0) maxRetries) := by
  induction strides generalizing q with
  | nil => exact (answer_advance_idle _ (.inl rfl)).1.symm
  | cons stride strides ih =>
    obtain ⟨htwin, hmore⟩ := h.answer_advance maxRetries stride
    rw [List.foldr_cons, hmore]
    exact ih htwin

/-- Over a quiet scan advances that leave no member come to the same. -/
theorem Twin.answer_advance_drained (h : Twin id q q) {stride stride' : Nat}
    (drained : (q.answer (.advance stride maxRetries)).batch.members = [])
    (drained' : (q.answer (.advance stride' maxRetries)).batch.members = []) :
    q.answer (.advance stride maxRetries) = q.answer (.advance stride' maxRetries) := by
  have hlonger : ∀ {stride more},
    (q.answer (.advance stride maxRetries)).batch.members = [] →
      q.answer (.advance (stride + more) maxRetries) =
          q.answer (.advance stride maxRetries) := by
    intro stride more hdrained
    rw [(h.answer_advance maxRetries stride).2 more]
    exact (answer_advance_idle _ (.inr hdrained)).1
  rcases Nat.le_total stride stride' with hle | hle
  · obtain ⟨more, rfl⟩ := Nat.exists_eq_add_of_le hle
    exact (hlonger drained).symm
  · obtain ⟨more, rfl⟩ := Nat.exists_eq_add_of_le hle
    exact hlonger drained'

end BatchRun

end Lockstep
