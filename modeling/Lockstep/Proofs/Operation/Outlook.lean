import Lockstep.Proofs.Operation.Course
import Lockstep.Proofs.Pipeline.Alone
set_option autoImplicit false

/-!
# The outlook of an operation

The essence of an operation is all of it but the count of its steps and the
way it reads its scan.  Its outlook is the essence with the end already noted
where a step would find it without a look at the scan.  What a step of a chain
without faults gives hangs on the outlook alone, and a step that sees no row
does not change it.
-/

namespace Lockstep

namespace Pipeline

/-- The pipeline but for its count of steps and the way it reads its scan. -/
def essence (p : Pipeline) : Pipeline :=
  { p with cached := false, counters := { p.counters with steps := 0 } }

/-- The essence, with the end noted if the query is over. -/
def outlook (p : Pipeline) : Pipeline := { p.essence with finished := p.isOver }

theorem isOver_essence {p : Pipeline} (sound : Link.IsSound p.links) :
    p.essence.isOver = p.isOver := by
  rw [isOver_of_isSound sound, isOver_of_isSound (p := p.essence) sound]
  rfl

theorem outlook_of_not_isOver {p : Pipeline} (h : p.isOver = false) :
    p.outlook = p.essence := by
  unfold outlook essence
  rw [h, finished_of_not_isOver h]

theorem essence_stop {p : Pipeline} (h : p.isOver = true) :
    p.stop.essence = p.outlook := by
  unfold outlook stop
  rw [h]
  split
  · rename_i hfinished
    unfold essence
    rw [hfinished]
  · rfl

theorem isOver_stop (p : Pipeline) : p.stop.isOver = true := by
  unfold isOver
  rw [finished_stop, Bool.true_or]

theorem outlook_stop {p : Pipeline} (h : p.isOver = true) :
    p.stop.outlook = p.outlook := by
  have hessence := essence_stop h
  unfold outlook at hessence ⊢
  rw [hessence, isOver_stop, h]

theorem receive_essence {p : Pipeline} (sound : Link.IsSound p.links) (row : Value) :
    (p.essence.receive row).1 = (p.receive row).1 ∧
      (p.essence.receive row).2.essence = (p.receive row).2.essence := by
  have hpass : ∀ c, Link.pass c row p.links = Link.pass p.counters row p.links :=
    fun c => Link.pass_congr sound c p.counters row
  unfold receive
  dsimp only [essence]
  simp only [hpass]
  split <;> exact ⟨rfl, rfl⟩

theorem accept_essence {p : Pipeline} (sound : Link.IsSound p.links)
    (outcome : Except Interruption Progress) :
    (p.essence.accept outcome).1 = (p.accept outcome).1 ∧
      (p.essence.accept outcome).2.essence = (p.accept outcome).2.essence := by
  unfold accept
  split
  · exact ⟨rfl, rfl⟩
  · have hclose : ∀ c, Link.close c p.links = .ok () := Link.close_of_isSound sound
    have hclose' : Link.close p.essence.counters p.essence.links = .ok () := hclose _
    rw [hclose, hclose']
    exact ⟨rfl, rfl⟩
  · exact ⟨rfl, rfl⟩
  · exact receive_essence sound _

/-- Live chains without faults that are the same in essence take the same read
in the same way. -/
theorem take_congr {p q : Pipeline} (sound : Link.IsSound p.links)
    (live : p.isOver = false) (h : p.essence = q.essence)
    (outcome : Except Interruption Progress) :
    (p.take outcome).1 = (q.take outcome).1 ∧
      (p.take outcome).2.essence = (q.take outcome).2.essence := by
  have hlinks : p.links = q.links :=
    (congrArg links h : p.essence.links = q.essence.links)
  have hsound : Link.IsSound q.links := hlinks ▸ sound
  have hlive : q.isOver = false := by
    rw [← isOver_essence hsound, ← h, isOver_essence sound]
    exact live
  rw [take_of_asks (asks_of_isSound sound live),
    take_of_asks (asks_of_isSound hsound hlive)]
  obtain ⟨hp, hp'⟩ := accept_essence (p := p.countStep) sound outcome
  obtain ⟨hq, hq'⟩ := accept_essence (p := q.countStep) hsound outcome
  have hcounted : p.countStep.essence = q.countStep.essence := h
  rw [← hp, ← hp', ← hq, ← hq', hcounted]
  exact ⟨rfl, rfl⟩

end Pipeline

namespace Operation

/-- The operation but for its count of steps and the way it reads its scan. -/
def essence (op : Operation) : Operation := { op with pipeline := op.pipeline.essence }

/-- The essence, with the end noted if the operation is over. -/
def outlook (op : Operation) : Operation := { op with pipeline := op.pipeline.outlook }

theorem isFinished_essence (op : Operation) : op.essence.isFinished = op.isFinished :=
  rfl

theorem isFinished_outlook (op : Operation) : op.outlook.isFinished = op.isOver := rfl

/-- Operations of one essence have one outlook. -/
theorem outlook_congr {op q : Operation} (sound : Link.IsSound op.pipeline.links)
    (h : op.essence = q.essence) : op.outlook = q.outlook := by
  obtain ⟨hsequence, hquery, hessence⟩ := Operation.mk.inj h
  have hlinks : op.pipeline.essence.links = q.pipeline.essence.links :=
    congrArg Pipeline.links hessence
  have hsound : Link.IsSound q.pipeline.links := by
    change op.pipeline.links = q.pipeline.links at hlinks
    exact hlinks ▸ sound
  have hover : op.pipeline.isOver = q.pipeline.isOver := by
    rw [← Pipeline.isOver_essence sound, hessence, Pipeline.isOver_essence hsound]
  unfold outlook Pipeline.outlook
  rw [hessence, hover, hsequence, hquery]

theorem outlook_of_not_isOver {op : Operation} (h : op.isOver = false) :
    op.outlook = op.essence := by
  unfold outlook essence
  rw [Pipeline.outlook_of_not_isOver h]

theorem essence_stop {op : Operation} (h : op.isOver = true) (cached : Bool) :
    (op.stop cached).essence = op.outlook := by
  have hpipeline := Pipeline.essence_stop (p := op.pipeline.setCached cached) h
  unfold essence stop
  dsimp only
  rw [hpipeline]
  rfl

theorem outlook_stop {op : Operation} (h : op.isOver = true) (cached : Bool) :
    (op.stop cached).outlook = op.outlook := by
  have hpipeline := Pipeline.outlook_stop (p := op.pipeline.setCached cached) h
  unfold outlook stop
  dsimp only
  rw [hpipeline]
  rfl

/-- Live operations of one outlook take the same read in the same way. -/
theorem take_congr {op q : Operation} (sound : Link.IsSound op.pipeline.links)
    (live : op.isOver = false) (h : op.outlook = q.outlook) (cached cached' : Bool)
    (outcome : Except Interruption Progress) :
    (op.take cached outcome).1 = (q.take cached' outcome).1 ∧
      (op.take cached outcome).2.essence = (q.take cached' outcome).2.essence := by
  have hover : q.isOver = false := by
    rw [← isFinished_outlook, ← h, isFinished_outlook]
    exact live
  rw [outlook_of_not_isOver live, outlook_of_not_isOver hover] at h
  obtain ⟨hsequence, hquery, hessence⟩ := Operation.mk.inj h
  have hset : (op.pipeline.setCached cached).essence =
    (q.pipeline.setCached cached').essence := hessence
  obtain ⟨hresult, hpipeline⟩ :=
    Pipeline.take_congr (p := op.pipeline.setCached cached) sound live hset outcome
  refine ⟨hresult, ?_⟩
  unfold take essence
  dsimp only
  rw [hpipeline, hsequence, hquery]

theorem outlook_take_failed {op : Operation} (sound : Link.IsSound op.pipeline.links)
    (live : op.isOver = false) (cached : Bool) (i : Interruption) :
    (op.take cached (.error i)).2.outlook = op.outlook := by
  have htake : (op.pipeline.setCached cached).take (.error i) =
      (.error i, (op.pipeline.setCached cached).countStep) :=
    Pipeline.take_of_asks
      (Pipeline.asks_of_isSound (p := op.pipeline.setCached cached) sound live) _
  unfold take
  rw [htake]
  exact outlook_congr sound rfl

end Operation

end Lockstep
