import Lockstep.Proofs.Batch.Locality
import Lockstep.Queue
import Mathlib.Data.List.TakeWhile
set_option autoImplicit false

/-!
# What will become of operations that wait

As long as no operation is stepped on its own, a queue hands out its operations
in runs of the batch size, and which run an operation is in hangs on its number
alone.  A run of several kinds is refused, and the reason names the first
operation that does not fit.  A run of one kind is grouped, and then each
operation has an outcome of its own.
-/

namespace Lockstep

/-! ## Runs that are refused -/

namespace Batch

/-- Why operations cannot be grouped over unpulled scans: the first that is not
of the kind of the one in front. -/
def misfit? : List Operation → Option Failure
  | [] => none
  | first :: others =>
    (others.find? fun op => op.pipeline.kind ≠ first.pipeline.kind).map fun op =>
      .incompatibleScan first.pipeline.kind.text op.pipeline.kind.text

theorem misfit?_of_kinds {kind : ScanKind} {ops : List Operation}
    (kinds : ∀ op ∈ ops, op.pipeline.kind = kind) : misfit? ops = none := by
  cases ops with
  | nil => rfl
  | cons first others =>
    obtain ⟨hfirst, hothers⟩ := List.forall_mem_cons.mp kinds
    have hfound : (others.find? fun op => op.pipeline.kind ≠ first.pipeline.kind) = none :=
      List.find?_eq_none.mpr fun op hop => by simp [hothers op hop, hfirst]
    rw [misfit?, hfound]
    rfl

/-- Over unpulled scans operations follow a pipeline up to the first that is
of another kind. -/
theorem failure_wire {s : Scans} {leader : Pipeline}
    (hleader : (s.cursor leader.cursor).pulls = 0) {ops : List Operation}
    (unpulled : ∀ op ∈ ops, (s.cursor op.pipeline.cursor).pulls = 0) :
    (wire leader s ops).2 =
      (ops.find? fun op => op.pipeline.kind ≠ leader.kind).map fun op =>
      .incompatibleScan leader.kind.text op.pipeline.kind.text := by
  induction ops with
  | nil => rfl
  | cons op ops ih =>
    obtain ⟨hpulls, hrest⟩ := List.forall_mem_cons.mp unpulled
    by_cases hkind : op.pipeline.kind = leader.kind
    · obtain ⟨p, hfollow⟩ : ∃ p, op.pipeline.follow leader s = .ok p := by
        unfold Pipeline.follow
        rw [if_neg (not_not.mpr hkind.symm)]
        split
        · exact ⟨_, rfl⟩
        · rw [if_neg (by omega)]
          exact ⟨_, rfl⟩
      rw [wire, hfollow, List.find?_cons_of_neg (by simpa using hkind), ← ih hrest]
    · have hfollow : op.pipeline.follow leader s =
          .error (.incompatibleScan leader.kind.text op.pipeline.kind.text) := by
        unfold Pipeline.follow
        exact if_pos fun hsame => hkind hsame.symm
      rw [wire, hfollow, List.find?_cons_of_pos (by simpa using hkind)]
      rfl

/-- Operations over unpulled scans are refused exactly if one of them does not
fit, and that is the reason. -/
theorem misfit?_of_form {name : String} {ops : List Operation} {s : Scans}
    (some : ops ≠ []) (unpulled : ∀ op ∈ ops, (s.cursor op.pipeline.cursor).pulls = 0) :
    misfit? ops = match form name ops s with
      | .ok _ => none
      | .error refusal => refusal.failure := by
  obtain ⟨first, others, rfl⟩ := List.exists_cons_of_ne_nil some
  obtain ⟨hfirst, hothers⟩ := List.forall_mem_cons.mp unpulled
  let leader := first.pipeline.setCached false
  have hleader : (s.cursor leader.cursor).pulls = 0 := hfirst
  have hwire := failure_wire hleader hothers
  unfold form
  dsimp only
  generalize wire (first.pipeline.setCached false) s others = wired at hwire
  obtain ⟨others', failure⟩ := wired
  cases failure with
  | none => exact hwire.symm
  | some f => exact hwire.symm

end Batch

namespace Operation

/-- What becomes of an operation that is handed out together with others. -/
def verdict (g : Graph) (companions : List Operation) (op : Operation) : Outcome :=
  match Batch.misfit? companions with
  | none => op.ownOutcome g
  | some f => ⟨op.sequence, op.query, .failed f.display, 0, #[]⟩

theorem sequence_verdict (g : Graph) (companions : List Operation) (op : Operation) :
    (op.verdict g companions).sequence = op.sequence := by
  unfold verdict
  split <;> rfl

/-- An operation that was never stepped is delivered with its verdict when a
batch is refused. -/
theorem outcome_refused {g : Graph} {companions : List Operation} {s : Scans}
    {op op' : Operation} (unstarted : op.Unstarted s) (refed : Batch.Refed op op')
    {f : Failure} (misfit : Batch.misfit? companions = some f) :
    Delivery.outcome ⟨op', .failed f.display⟩ = op.verdict g companions := by
  obtain ⟨id, cached, rfl⟩ := refed
  have hrows : (op.fedBy id cached).pipeline.rows = #[] := unstarted.rows
  have hsteps : (op.fedBy id cached).pipeline.counters = {} := unstarted.counters
  unfold verdict Delivery.outcome
  rw [misfit]
  dsimp only
  rw [hrows, hsteps]
  rfl

end Operation

/-! ## Runs of a queue -/

namespace Queue

/-- A batch takes a run from the front of operations none of which was ever stepped. -/
theorem drainBatch_of_fresh {q : Queue}
    (fresh : ∀ op ∈ q.operations, op.isStarted = false) (max : Nat) :
    q.drainBatch max =
      (q.operations.take max, { q with operations := q.operations.drop max }) := by
  have hsize : batchSize max q.operations = (q.operations.take max).length := by
    unfold batchSize
    cases hops : q.operations with
    | nil => simp
    | cons front rest =>
      rw [hops] at fresh
      dsimp only
      rw [fresh front List.mem_cons_self, if_neg Bool.false_ne_true,
        List.takeWhile_eq_self_iff.mpr]
      intro op hop
      rw [fresh op (List.mem_of_mem_take hop)]
      rfl
  unfold drainBatch
  dsimp only
  rw [hsize, List.length_take]
  rcases Nat.le_total max q.operations.length with hle | hle
  · rw [Nat.min_eq_left hle]
  · rw [Nat.min_eq_right hle, List.take_of_length_le hle, List.take_length,
      List.drop_of_length_le hle, List.drop_length]

/-- The run that an operation is handed out in, if operations are numbered in order. -/
def companions (size : Nat) (ops : List Operation) (op : Operation) : List Operation :=
  (ops.drop (op.sequence / size * size)).take size

/-- Each run is that of all its operations. -/
theorem companions_eq {ops : List Operation}
    (numbered : ops.map Operation.sequence = List.range ops.length) {size run : Nat}
    {op : Operation} (h : op ∈ (ops.drop (run * size)).take size) :
    companions size ops op = (ops.drop (run * size)).take size := by
  obtain ⟨place, hplace⟩ := List.mem_iff_getElem?.mp h
  rw [List.getElem?_take, List.getElem?_drop] at hplace
  split at hplace
  · rename_i hlt
    have hnumber := congrArg (·[run * size + place]?) numbered
    obtain ⟨hbound, -⟩ := List.getElem?_eq_some_iff.mp hplace
    rw [List.getElem?_map, hplace, List.getElem?_range hbound] at hnumber
    have hsequence : op.sequence = run * size + place := Option.some.inj hnumber
    have hrun : op.sequence / size = run := by
      rw [hsequence, Nat.mul_comm, Nat.mul_add_div (Nat.zero_lt_of_lt hlt),
        Nat.div_eq_of_lt hlt, Nat.add_zero]
    unfold companions
    rw [hrun]
  · cases hplace

theorem companions_subset {size : Nat} {ops : List Operation} {op op' : Operation}
    (h : op' ∈ companions size ops op) : op' ∈ ops :=
  List.mem_of_mem_drop (List.mem_of_mem_take h)

end Queue

/-- If all operations are of one kind, what becomes of them does not hang
on the batch size. -/
theorem Operation.verdict_of_kinds {kind : ScanKind} {ops : List Operation}
    (kinds : ∀ op ∈ ops, op.pipeline.kind = kind) (g : Graph) (size : Nat)
    (op : Operation) :
    op.verdict g (Queue.companions size ops op) = op.ownOutcome g := by
  unfold verdict
  rw [Batch.misfit?_of_kinds fun op' hop' => kinds op' (Queue.companions_subset hop')]

end Lockstep
