import Lockstep.Proofs.Batch.Retry
import Lockstep.Proofs.Batch.Unison
import Lockstep.Proofs.Pipeline.Lone
set_option autoImplicit false

/-!
# What a batch costs

Over a quiet scan every member of a batch is, after any number of rounds, where
it would be after as many steps alone, and leaves with the round that is its
last step.  So a batch takes as many rounds as its slowest member takes steps
and as many pulls as its member with most pulls, and the members leave ordered
by their steps, and by their position where these are equal.
-/

namespace Lockstep

/-! ## Operations on their own -/

namespace Operation

/-- The chain of an operation at its start, pulling a cursor by itself. -/
def starting (id : CursorId) (op : Operation) : Pipeline := (op.fedBy id false).pipeline

/-- How many steps an operation takes on its own over the rows of a cursor. -/
def stepCost (id : CursorId) (s : Scans) (op : Operation) : Nat :=
  (op.starting id).stepCost s

/-- How many pulls an operation takes on its own over the rows of a cursor. -/
def pullCost (id : CursorId) (s : Scans) (op : Operation) : Nat :=
  (op.starting id).pullCost s

/-- The operation after so many steps on its own. -/
def after (id : CursorId) (s : Scans) (count : Nat) (op : Operation) : Operation :=
  { op with pipeline := (Pipeline.steps count (op.starting id) s).1 }

/-- The outcome of an operation that has come to its end on its own. -/
def loneOutcome (id : CursorId) (s : Scans) (op : Operation) : Outcome :=
  ⟨op.sequence, op.query, .completed, op.stepCost id s, ((op.starting id).run s).1.rows⟩

section

variable {id : CursorId} {s : Scans} {count : Nat} {op : Operation}

theorem isFinished_after (h : (op.starting id).Begins s) :
    (op.after id s count).isFinished = true ↔ op.stepCost id s ≤ count :=
  h.finished_steps_iff

theorem stepped_after (h : (op.starting id).Begins s) (hlt : count < op.stepCost id s) :
    (op.after id s count).stepped (s.pullTimes id count) =
      op.after id s (count + 1) := by
  have hunderway := h.underway_of_lt hlt
  have hscans : (Pipeline.steps count (op.starting id) s).2 = s.pullTimes id count :=
    hunderway.scans
  have hfresh : (Pipeline.steps count (op.starting id) s).1.setCached false =
      (Pipeline.steps count (op.starting id) s).1 := by
    unfold Pipeline.setCached
    rw [← hunderway.fresh]
  unfold after
  rw [Pipeline.steps_succ, hscans]
  unfold stepped step
  dsimp only
  rw [hfresh]

theorem outcome_after (h : (op.starting id).Begins s) (hle : op.stepCost id s ≤ count) :
    Delivery.outcome ⟨op.after id s count, .completed⟩ = op.loneOutcome id s := by
  unfold after
  rw [h.steps_of_le hle]
  rfl

end

theorem begins_starting {s : Scans} {first op : Operation} (hfirst : first.Unstarted s)
    (quiet : (s.cursor first.pipeline.cursor).source.IsQuiet s.graph)
    (h : op.Unstarted s) (sound : Link.IsSound op.pipeline.links) :
    (op.starting first.pipeline.cursor).Begins s where
  fresh := rfl
  sound := sound
  unfinished := h.finished
  uncounted := congrArg Counters.steps h.counters
  quiet := ⟨hfirst.isOpen, hfirst.pristine ▸ rfl, quiet⟩
  unpulled := hfirst.pristine.pulls
  unexhausted := by
    show (s.cursor first.pipeline.cursor).isExhausted = false
    rw [hfirst.pristine]
    rfl

end Operation

/-! ## Ordered by cost -/

/-- One operation comes before another if it costs less, or as much and
stands before it. -/
def Precedes (cost : Operation → Nat) (a b : Operation × Nat) : Prop :=
  cost a.1 < cost b.1 ∨ cost a.1 = cost b.1 ∧ a.2 < b.2

/-- The operations that cost no more than a limit, with their positions, ordered. -/
structure OrderedUpTo (cost : Operation → Nat) (ops : List Operation) (limit : Nat)
    (order : List (Operation × Nat)) : Prop where
  perm : order.Perm (ops.zipIdx.filter fun entry => cost entry.1 ≤ limit)
  sorted : order.Pairwise (Precedes cost)

namespace OrderedUpTo

variable {cost : Operation → Nat} {ops : List Operation} {limit : Nat}
  {order : List (Operation × Nat)}

theorem zero (pos : ∀ op ∈ ops, 0 < cost op) : OrderedUpTo cost ops 0 [] where
  perm := by
    have hnone : ops.zipIdx.filter (fun entry => cost entry.1 ≤ 0) = [] := by
      refine List.filter_eq_nil_iff.mpr fun entry hentry => ?_
      have := pos entry.1 (List.fst_mem_of_mem_zipIdx hentry)
      simp only [decide_eq_true_eq]
      omega
    rw [hnone]
  sorted := .nil

/-- Operations that cost one more come behind, in the order of their positions. -/
theorem next (h : OrderedUpTo cost ops limit order) :
    OrderedUpTo cost ops (limit + 1)
      (order ++ ops.zipIdx.filter fun entry => cost entry.1 = limit + 1) where
  perm := by
    have hsplit := List.filter_append_perm
      (fun entry : Operation × Nat => decide (cost entry.1 ≤ limit))
      (ops.zipIdx.filter fun entry => cost entry.1 ≤ limit + 1)
    rw [List.filter_filter, List.filter_filter] at hsplit
    have hbelow : ops.zipIdx.filter (fun entry => decide (cost entry.1 ≤ limit) &&
        decide (cost entry.1 ≤ limit + 1)) = ops.zipIdx.filter fun entry =>
            cost entry.1 ≤ limit := by
      refine List.filter_congr fun entry _ => ?_
      rw [← Bool.decide_and, decide_eq_decide]
      omega
    have hequal : ops.zipIdx.filter (fun entry => !decide (cost entry.1 ≤ limit) &&
        decide (cost entry.1 ≤ limit + 1)) = ops.zipIdx.filter fun entry =>
            cost entry.1 = limit + 1 := by
      refine List.filter_congr fun entry _ => ?_
      rw [← decide_not, ← Bool.decide_and, decide_eq_decide]
      omega
    rw [hbelow, hequal] at hsplit
    exact (h.perm.append_right _).trans hsplit
  sorted := by
    refine List.pairwise_append.mpr ⟨h.sorted, ?_, ?_⟩
    · have hpositions : ops.zipIdx.Pairwise fun a b => a.2 < b.2 := by
        rw [← List.pairwise_map (f := Prod.snd) (R := (· < ·)), List.zipIdx_map_snd]
        exact List.pairwise_lt_range'
      refine (hpositions.filter _).imp_of_mem fun {a b} ha hb hlt => .inr ⟨?_, hlt⟩
      have hcost := (List.mem_filter.mp ha).2
      have hcost' := (List.mem_filter.mp hb).2
      rw [decide_eq_true_eq] at hcost hcost'
      exact hcost.trans hcost'.symm
    · intro a ha b hb
      have hcost := (List.mem_filter.mp (h.perm.mem_iff.mp ha)).2
      have hcost' := (List.mem_filter.mp hb).2
      rw [decide_eq_true_eq] at hcost hcost'
      exact .inl (by omega)

theorem congr (h : OrderedUpTo cost ops limit order) {limit' : Nat}
    (same : ∀ op ∈ ops, cost op ≤ limit ↔ cost op ≤ limit') :
    OrderedUpTo cost ops limit' order where
  perm := by
    refine h.perm.trans (.of_eq (List.filter_congr fun entry hentry => ?_))
    exact decide_eq_decide.mpr (same entry.1 (List.fst_mem_of_mem_zipIdx hentry))
  sorted := h.sorted

end OrderedUpTo

/-- The largest of some numbers. -/
def largest (numbers : List Nat) : Nat := numbers.foldr max 0

theorem largest_le_iff {numbers : List Nat} {bound : Nat} :
    largest numbers ≤ bound ↔ ∀ n ∈ numbers, n ≤ bound := by
  induction numbers with
  | nil => exact iff_of_true (Nat.zero_le _) (List.forall_mem_nil _)
  | cons n numbers ih =>
    show max n (largest numbers) ≤ bound ↔ _
    rw [Nat.max_le, ih, List.forall_mem_cons]

theorem le_largest_map (cost : Operation → Nat) {ops : List Operation} {op : Operation}
    (hop : op ∈ ops) :
    cost op ≤ largest (ops.map cost) :=
  largest_le_iff.mp (Nat.le_refl _) _ (List.mem_map_of_mem hop)

theorem largest_map_le_iff {cost : Operation → Nat} {ops : List Operation}
    {bound : Nat} :
    largest (ops.map cost) ≤ bound ↔ ∀ op ∈ ops, cost op ≤ bound := by
  rw [largest_le_iff, List.forall_mem_map]

theorem exists_of_le_largest {cost : Operation → Nat} {first : Operation}
    {others : List Operation} {bound : Nat}
    (h : bound ≤ largest ((first :: others).map cost)) :
    ∃ op ∈ first :: others, bound ≤ cost op := by
  by_contra hnone
  simp only [not_exists, not_and, Nat.not_le] at hnone
  have hfirst := hnone first List.mem_cons_self
  have hless : largest ((first :: others).map cost) ≤ bound - 1 :=
    largest_map_le_iff.mpr fun op hop => Nat.le_pred_of_lt (hnone op hop)
  omega

/-! ## In unison -/

/-- After so many rounds every operation is where it would be after as many
steps on its own, and those that have come to their end were delivered. -/
structure BatchRun.InUnison (ops : List Operation) (id : CursorId) (s : Scans)
    (count : Nat) (r : BatchRun) : Prop where
  within : count ≤ largest (ops.map (·.stepCost id s))
  rounds : r.batch.rounds = count
  members : r.batch.members.map Operation.fresh =
    (ops.filter fun op => count < op.stepCost id s).map (Operation.after id s count)
  scans : r.scans = s.pullTimes id (min count (largest (ops.map (·.pullCost id s))))
  deliveries : ∃ order, OrderedUpTo (·.stepCost id s) ops count order ∧
    r.deliveries.map Delivery.outcome = order.map fun entry => entry.1.loneOutcome id s

namespace BatchRun.InUnison

variable {ops : List Operation} {id : CursorId} {s : Scans} {count : Nat} {r : BatchRun}

theorem members_eq_nil_iff (h : r.InUnison ops id s count) :
    r.batch.members = [] ↔ largest (ops.map (·.stepCost id s)) ≤ count := by
  rw [← List.map_eq_nil_iff (f := Operation.fresh), h.members, List.map_eq_nil_iff,
    List.filter_eq_nil_iff, largest_map_le_iff]
  refine forall_congr' fun op => imp_congr_right fun _ => ?_
  rw [decide_eq_true_eq, Nat.not_lt]

theorem exists_origin (h : r.InUnison ops id s count) {member : Operation}
    (hmember : member ∈ r.batch.members) :
    ∃ op ∈ ops, count < op.stepCost id s ∧ member.fresh = op.after id s count := by
  have hfresh : member.fresh ∈ r.batch.members.map Operation.fresh :=
    List.mem_map_of_mem hmember
  rw [h.members] at hfresh
  obtain ⟨op, hop, hsame⟩ := List.mem_map.mp hfresh
  obtain ⟨hmem, hlt⟩ := List.mem_filter.mp hop
  exact ⟨op, hmem, of_decide_eq_true hlt, hsame.symm⟩

theorem exists_member (h : r.InUnison ops id s count) {op : Operation} (hop : op ∈ ops)
    (hlt : count < op.stepCost id s) :
    ∃ member ∈ r.batch.members, member.fresh = op.after id s count := by
  have hmem : op.after id s count ∈ r.batch.members.map Operation.fresh := by
    rw [h.members]
    exact List.mem_map_of_mem (List.mem_filter.mpr ⟨hop, decide_eq_true hlt⟩)
  exact List.mem_map.mp hmem

/-- Until the slowest operation has come to its end, the scan has been
pulled in every round. -/
theorem pulled (h : r.InUnison ops id s count)
    (begins : ∀ op ∈ ops, (op.starting id).Begins s)
    (hlt : count < largest (ops.map (·.stepCost id s))) :
    r.scans = s.pullTimes id count ∧ r.scans.IsQuiet id ∧
      (r.scans.cursor id).isExhausted = false := by
  obtain ⟨op, hop, hcost⟩ : ∃ op ∈ ops, count < op.stepCost id s := by
    by_contra hnone
    simp only [not_exists, not_and, Nat.not_lt] at hnone
    exact absurd (largest_map_le_iff.mpr hnone) (Nat.not_le_of_lt hlt)
  have hmost : count ≤ largest (ops.map (·.pullCost id s)) := by
    have hpulls := (begins op hop).pullCost_bounds
    have hle := le_largest_map (·.pullCost id s) hop
    have hcost' : count < (op.starting id).stepCost s := hcost
    have hsame : op.pullCost id s = (op.starting id).pullCost s := rfl
    omega
  have hscans : r.scans = s.pullTimes id count := by
    rw [h.scans, Nat.min_eq_left hmost]
  have hunderway := (begins op hop).underway_of_lt hcost
  have hsame : (Pipeline.steps count (op.starting id) s).2 = s.pullTimes id count :=
    hunderway.scans
  refine ⟨hscans, ?_, ?_⟩
  · rw [hscans, ← hsame]
    exact hunderway.quiet
  · rw [hscans, ← hsame]
    exact hunderway.unexhausted

theorem steady (h : r.InUnison ops id s count)
    (begins : ∀ op ∈ ops, (op.starting id).Begins s) :
    ∀ member ∈ r.batch.members, member.Steady id := by
  intro member hmember
  obtain ⟨op, hop, hlt, hsame⟩ := h.exists_origin hmember
  have hunderway := (begins op hop).underway_of_lt hlt
  have hpipeline := (Operation.mk.inj hsame).2.2
  exact ⟨(congrArg Pipeline.cursor hpipeline).trans hunderway.cursor,
    (congrArg Pipeline.links hpipeline).symm ▸ hunderway.sound⟩

/-- The scan after one more round: it was pulled unless no operation has a pull left. -/
theorem scans_next (h : r.InUnison ops id s count)
    (begins : ∀ op ∈ ops, (op.starting id).Begins s)
    (hscans : r.scans = s.pullTimes id count) {s' : Scans}
    (hround : (∀ op ∈ r.batch.members, op.isOver = true) ∧ s' = r.scans ∨
      (∃ op ∈ r.batch.members, op.isOver = false) ∧ s' = (r.scans.pull id).2) :
    s' = s.pullTimes id (min (count + 1) (largest (ops.map (·.pullCost id s)))) := by
  rcases hround with ⟨hover, rfl⟩ | ⟨⟨member, hmember, hlive⟩, rfl⟩
  · have hmost : largest (ops.map (·.pullCost id s)) ≤ count := by
      refine largest_map_le_iff.mpr fun op hop => ?_
      rcases Nat.lt_or_ge count (op.stepCost id s) with hlt | hge
      · obtain ⟨member, hmember, hsame⟩ := h.exists_member hop hlt
        have hfresh : (op.after id s count).isOver = true :=
          hsame ▸ hover member hmember
        exact Nat.le_of_eq ((begins op hop).cost_of_isOver hlt hfresh).2
      · exact Nat.le_trans (begins op hop).pullCost_bounds.1 hge
    rw [h.scans, Nat.min_eq_right hmost, Nat.min_eq_right (Nat.le_succ_of_le hmost)]
  · have hmost : count + 1 ≤ largest (ops.map (·.pullCost id s)) := by
      obtain ⟨op, hop, hlt, hsame⟩ := h.exists_origin hmember
      have hfresh : (op.after id s count).isOver = false := hsame ▸ hlive
      exact Nat.le_trans ((begins op hop).lt_pullCost_of_live hlt hfresh)
        (le_largest_map (·.pullCost id s) hop)
    rw [Nat.min_eq_left hmost, hscans]
    rfl

theorem fresh_next (h : r.InUnison ops id s count)
    (begins : ∀ op ∈ ops, (op.starting id).Begins s)
    (hscans : r.scans = s.pullTimes id count) :
    r.batch.members.map (Operation.stepped r.scans) =
      (ops.filter fun op => count < op.stepCost id s).map
        (Operation.after id s (count + 1)) := by
  have hfresh : r.batch.members.map (Operation.stepped r.scans) =
      (r.batch.members.map Operation.fresh).map (Operation.stepped r.scans) := by
    rw [List.map_map]
    exact List.map_congr_left fun op _ => (op.stepped_fresh r.scans).symm
  rw [hfresh, h.members, List.map_map, hscans]
  refine List.map_congr_left fun op hop => ?_
  obtain ⟨hmem, hcost⟩ := List.mem_filter.mp hop
  exact Operation.stepped_after (begins op hmem) (of_decide_eq_true hcost)

/-- Of the members after a round, those that have found their end are the
operations whose cost is the number of rounds, and the others cost more. -/
theorem split_next (begins : ∀ op ∈ ops, (op.starting id).Begins s)
    {members : List Operation}
    (hmembers : members.map Operation.fresh =
      (ops.filter fun op => count < op.stepCost id s).map
      (Operation.after id s (count + 1))) :
    (members.filter fun op => !op.isFinished).map Operation.fresh =
        (ops.filter fun op => count + 1 < op.stepCost id s).map
          (Operation.after id s (count + 1)) ∧
      (members.filter Operation.isFinished).map Operation.fresh =
        (ops.filter fun op => op.stepCost id s = count + 1).map
          (Operation.after id s (count + 1)) := by
  have hfinished : ∀ op ∈ ops, (op.after id s (count + 1)).isFinished =
      decide (op.stepCost id s ≤ count + 1) := fun op hop =>
    Bool.eq_iff_iff.mpr
      ((Operation.isFinished_after (begins op hop)).trans decide_eq_true_iff.symm)
  constructor
  · refine (List.filter_map (p := fun op => !op.isFinished)
      (f := Operation.fresh)).symm.trans ?_
    rw [hmembers, List.filter_map, List.filter_filter]
    refine congrArg (List.map _) (List.filter_congr fun op hop => ?_)
    show (!(op.after id s (count + 1)).isFinished &&
      decide (count < op.stepCost id s)) = _
    rw [hfinished op hop, ← decide_not, ← Bool.decide_and, decide_eq_decide]
    omega
  · refine (List.filter_map (p := Operation.isFinished)
      (f := Operation.fresh)).symm.trans ?_
    rw [hmembers, List.filter_map, List.filter_filter]
    refine congrArg (List.map _) (List.filter_congr fun op hop => ?_)
    show ((op.after id s (count + 1)).isFinished && decide (count < op.stepCost id s)) = _
    rw [hfinished op hop, ← Bool.decide_and, decide_eq_decide]
    omega

/-- The operations that leave with a round have their lone outcomes, in the
order of their positions. -/
theorem outcomes_next (begins : ∀ op ∈ ops, (op.starting id).Begins s)
    {leaving : List Operation}
    (hleaving : leaving.map Operation.fresh =
      (ops.filter fun op => op.stepCost id s = count + 1).map
      (Operation.after id s (count + 1))) :
    (Batch.completions leaving).map Delivery.outcome =
      (ops.zipIdx.filter fun entry => entry.1.stepCost id s = count + 1).map
        fun entry => entry.1.loneOutcome id s := by
  have hoperations :
    (ops.zipIdx.filter fun entry => entry.1.stepCost id s = count + 1).map Prod.fst =
      ops.filter fun op => op.stepCost id s = count + 1 := by
    refine (List.filter_map
      (p := fun op : Operation => decide (op.stepCost id s = count + 1))
      (f := Prod.fst)).symm.trans ?_
    rw [List.zipIdx_map_fst]
  calc (Batch.completions leaving).map Delivery.outcome
      = (leaving.map Operation.fresh).map fun op =>
          Delivery.outcome ⟨op, .completed⟩ := by
        unfold Batch.completions
        rw [List.map_map, List.map_map]
        rfl
    _ = (ops.filter fun op => op.stepCost id s = count + 1).map
        (Operation.loneOutcome id s) := by
        rw [hleaving, List.map_map]
        refine List.map_congr_left fun op hop => ?_
        obtain ⟨hmem, hcost⟩ := List.mem_filter.mp hop
        exact Operation.outcome_after (begins op hmem)
          (Nat.le_of_eq (of_decide_eq_true hcost))
    _ = _ := by
        rw [← hoperations, List.map_map]
        rfl

theorem next (h : r.InUnison ops id s count)
    (begins : ∀ op ∈ ops, (op.starting id).Begins s)
    (hlt : count < largest (ops.map (·.stepCost id s))) :
    ∃ members s', Batch.round r.batch.members r.scans = (.completed, members, s') ∧
      (r.completed members s').InUnison ops id s (count + 1) := by
  obtain ⟨hscans, hquiet, hunexhausted⟩ := h.pulled begins hlt
  obtain ⟨members, s', hround, hsame, hpull⟩ :=
    Batch.round_unison hquiet hunexhausted (h.steady begins)
  obtain ⟨hstaying, hleaving⟩ :=
    split_next begins (hsame.trans (h.fresh_next begins hscans))
  obtain ⟨order, hordered, hdeliveries⟩ := h.deliveries
  refine ⟨members, s', hround, hlt, congrArg (· + 1) h.rounds, hstaying,
    h.scans_next begins hscans hpull, _, hordered.next, ?_⟩
  show (r.deliveries ++ Batch.completions (members.filter Operation.isFinished)).map
    Delivery.outcome = _
  rw [List.map_append, List.map_append, hdeliveries, outcomes_next begins hleaving]

/-- An advance goes on in unison, up to the end of the slowest operation. -/
theorem advance (h : r.InUnison ops id s count)
    (begins : ∀ op ∈ ops, (op.starting id).Begins s) (stride : Nat)
    (maxRetries : UInt32) :
    (r.answer (.advance stride maxRetries)).InUnison ops id s
      (min (count + stride) (largest (ops.map (·.stepCost id s)))) := by
  induction stride generalizing r count with
  | zero =>
    rw [(BatchRun.answer_advance_idle maxRetries (.inl rfl)).1, Nat.add_zero,
      Nat.min_eq_left h.within]
    exact h
  | succ stride ih =>
    rcases Nat.lt_or_ge count (largest (ops.map (·.stepCost id s))) with hlt | hge
    · obtain ⟨members, s', hround, hnext⟩ := h.next begins hlt
      have hmembers : r.batch.members ≠ [] := fun hnone =>
        absurd (h.members_eq_nil_iff.mp hnone) (Nat.not_le_of_lt hlt)
      rw [(BatchRun.answer_advance_completed stride maxRetries hmembers hround).1]
      have hrest := ih hnext
      rwa [Nat.add_assoc, Nat.add_comm 1 stride] at hrest
    · have hmembers := h.members_eq_nil_iff.mpr hge
      have hcount : min (count + (stride + 1)) (largest (ops.map (·.stepCost id s))) =
          count := by
        have := h.within
        omega
      rw [(BatchRun.answer_advance_idle maxRetries (.inr hmembers)).1, hcount]
      exact h

end BatchRun.InUnison

/-- An advance of so many rounds that survives so many aborted rounds in a row. -/
def BatchCall.ofStride (call : Nat × UInt32) : BatchCall := .advance call.1 call.2

/-- How many rounds some advances are together. -/
def BatchCall.totalStride (calls : List (Nat × UInt32)) : Nat :=
  calls.foldr (fun call total => call.1 + total) 0

/-- Advances of any strides go on in unison for as many rounds as they have together. -/
theorem BatchRun.InUnison.advances {ops : List Operation} {id : CursorId} {s : Scans}
    {count : Nat} {r : BatchRun} (h : r.InUnison ops id s count)
    (begins : ∀ op ∈ ops, (op.starting id).Begins s) (advances : List (Nat × UInt32)) :
    (r.answerAll (advances.map BatchCall.ofStride)).InUnison ops id s
      (min (count + BatchCall.totalStride advances)
        (largest (ops.map (·.stepCost id s)))) := by
  induction advances generalizing r count with
  | nil =>
    show r.InUnison ops id s (min count _)
    rw [Nat.min_eq_left h.within]
    exact h
  | cons call advances ih =>
    have hrest := ih (h.advance begins call.1 call.2)
    have hcount : min (min (count + call.1) (largest (ops.map (·.stepCost id s))) +
          BatchCall.totalStride advances) (largest (ops.map (·.stepCost id s))) =
        min (count + BatchCall.totalStride (call :: advances))
          (largest (ops.map (·.stepCost id s))) := by
      have htotal : BatchCall.totalStride (call :: advances) =
          call.1 + BatchCall.totalStride advances := rfl
      omega
    rw [hcount] at hrest
    exact hrest

namespace Batch

/-- A new batch of operations that can begin is in unison with them. -/
theorem inUnison_grouped (name : String) {s : Scans} {first : Operation}
    {others : List Operation}
    (begins : ∀ op ∈ first :: others, (op.starting first.pipeline.cursor).Begins s) :
    BatchRun.InUnison (first :: others) first.pipeline.cursor s 0
      { batch :=
        { id := name, firstSequence := first.sequence, members := grouped first others }
        scans := s } where
  within := Nat.zero_le _
  rounds := rfl
  members := by
    have hall :
      (first :: others).filter (fun op => 0 < op.stepCost first.pipeline.cursor s) =
        first :: others :=
      List.filter_eq_self.mpr fun op hop => decide_eq_true (begins op hop).stepCost_pos
    rw [hall]
    unfold grouped
    rw [List.map_cons, List.map_cons, List.map_map]
    rfl
  scans := by
    rw [Nat.zero_min]
    rfl
  deliveries := ⟨[], .zero fun op hop => (begins op hop).stepCost_pos, rfl⟩

/-- Operations of one kind that were never stepped can be grouped.  If no read
of the first one's source fails, each takes some number of steps alone to find
its end; and however the rounds are split into advances, the batch is empty
after exactly as many rounds as its slowest operation takes steps, which is at
most one more than there are rows; the source was then pulled exactly as often
as the operation with most pulls pulls it alone; and operations leave with their
lone outcomes, their own steps among them, ordered by their steps and then by
their positions. -/
theorem costs_slowest_operation (name : String) (s : Scans) (first : Operation)
    (others : List Operation) (unstarted : ∀ op ∈ first :: others, op.Unstarted s)
    (kinds : ∀ op ∈ others, op.pipeline.kind = first.pipeline.kind)
    (sound : ∀ op ∈ first :: others, Link.IsSound op.pipeline.links)
    (quiet : (s.cursor first.pipeline.cursor).source.IsQuiet s.graph) :
    let ops := first :: others
    let id := first.pipeline.cursor
    (∀ op ∈ ops, ∀ count, (op.after id s count).isFinished = true ↔
      op.stepCost id s ≤ count) ∧
    ∃ b, form name ops s = .ok b ∧ ∀ advances : List (Nat × UInt32),
      let run := BatchRun.answerAll { batch := b, scans := s }
        (advances.map BatchCall.ofStride)
      let total := BatchCall.totalStride advances
      let slowest := largest (ops.map (·.stepCost id s))
      let mostPulls := largest (ops.map (·.pullCost id s))
      run.batch.rounds = min total slowest ∧
        (run.batch.members = [] ↔ slowest ≤ total) ∧
        slowest ≤ ((s.cursor id).source.rows s.graph).length + 1 ∧
        (run.scans.cursor id).pulls = min total mostPulls ∧ mostPulls ≤ slowest ∧
        ∃ order, OrderedUpTo (·.stepCost id s) ops total order ∧
          run.deliveries.map Delivery.outcome = order.map fun entry =>
            entry.1.loneOutcome id s := by
  intro ops id
  have hfirst := unstarted first List.mem_cons_self
  have hbegins : ∀ op ∈ ops, (op.starting id).Begins s := fun op hop =>
    Operation.begins_starting hfirst quiet (unstarted op hop) (sound op hop)
  refine ⟨fun op hop count => Operation.isFinished_after (hbegins op hop), _,
    form_eq name kinds fun op hop => (unstarted op hop).pristine.pulls, ?_⟩
  intro advances run total slowest mostPulls
  have hrun : run.InUnison ops id s (min total slowest) := by
    have hadvanced := (inUnison_grouped name hbegins).advances hbegins advances
    rwa [Nat.zero_add] at hadvanced
  have hmost : mostPulls ≤ slowest := largest_map_le_iff.mpr fun op hop =>
    Nat.le_trans (hbegins op hop).pullCost_bounds.1
      (le_largest_map (·.stepCost id s) hop)
  have hmembers := hrun.members_eq_nil_iff
  obtain ⟨order, hordered, hdeliveries⟩ := hrun.deliveries
  refine ⟨hrun.rounds, ?_, ?_, ?_, hmost, order, hordered.congr ?_, hdeliveries⟩
  · rw [hmembers]
    show slowest ≤ min total slowest ↔ slowest ≤ total
    omega
  · have hrows : (s.upcoming id).length = ((s.cursor id).source.rows s.graph).length :=
      congrArg List.length (hfirst.pristine.upcoming s.graph)
    rw [← hrows]
    exact largest_map_le_iff.mpr fun op hop => (hbegins op hop).stepCost_le
  · have hcount : min (min total slowest) mostPulls = min total mostPulls := by omega
    obtain ⟨op, hop, hle⟩ : ∃ op ∈ ops, min total mostPulls ≤ op.pullCost id s :=
      exists_of_le_largest (Nat.min_le_right _ _)
    have hscans : run.scans = s.pullTimes id (min total mostPulls) := by
      rw [← hcount]
      exact hrun.scans
    rw [hscans]
    exact (hbegins op hop).pulls_pullTimes hle
  · intro op hop
    have hle : op.stepCost id s ≤ slowest := le_largest_map (·.stepCost id s) hop
    omega

/-- Two scans that no read of which fails, each of two rows. -/
def quietPair : Scans where
  graph := default
  cursors := Array.replicate 2 { source := .script [.row (.nat 1), .row (.nat 2)] }

/-- An operation that is cut at one row and, though it comes first, leaves the
scan to the other. -/
def cutAtOne : Operation :=
  ⟨0, "first", { kind := .allNodes, cursor := 0, links := [.ofQuota 1] }⟩

/-- An operation that reads on to the end of the scan. -/
def readsOn : Operation := ⟨1, "all", { kind := .allNodes, cursor := 1, links := [] }⟩

/-- A batch of an operation of two steps and one of three is empty after three
rounds and three pulls. -/
theorem costs_slowest_operation_pair :
    ∃ b, form "pair" [cutAtOne, readsOn] quietPair = .ok b ∧
      let run := BatchRun.answerAll { batch := b, scans := quietPair }
        ([(2, 0), (2, 7)].map BatchCall.ofStride)
      run.batch.rounds = 3 ∧ run.batch.members = [] ∧ (run.scans.cursor 0).pulls = 3 ∧
        ∃ order, OrderedUpTo (·.stepCost 0 quietPair) [cutAtOne, readsOn] 4 order ∧
          run.deliveries.map Delivery.outcome = order.map fun entry =>
            entry.1.loneOutcome 0 quietPair := by
  have hboth : ∀ P : Operation → Prop, P cutAtOne → P readsOn →
      ∀ op ∈ [cutAtOne, readsOn], P op :=
    fun P hfirst hsecond =>
      List.forall_mem_cons.mpr ⟨hfirst, List.forall_mem_singleton.mpr hsecond⟩
  obtain ⟨-, b, hform, hrun⟩ :=
    costs_slowest_operation "pair" quietPair cutAtOne [readsOn]
    (hboth (·.Unstarted quietPair) ⟨rfl, rfl, rfl, by decide, rfl⟩
      ⟨rfl, rfl, rfl, by decide, rfl⟩)
    (List.forall_mem_singleton.mpr rfl)
    (hboth (fun op => Link.IsSound op.pipeline.links)
      (List.forall_mem_singleton.mpr rfl) (List.forall_mem_nil _))
    (by simp [Source.IsQuiet, cutAtOne, quietPair, Scans.cursor,
      ScriptEntry.isInterruption])
  obtain ⟨hrounds, hmembers, -, hpulls, -, horder⟩ := hrun [(2, 0), (2, 7)]
  refine ⟨b, hform, hrounds.trans (by decide), hmembers.mpr (by decide),
    hpulls.trans (by decide), ?_⟩
  exact horder

end Batch

end Lockstep
