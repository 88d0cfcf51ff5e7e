import Lockstep.Proofs.Batch.Round
import Lockstep.Proofs.Operation.Outlook
import Lockstep.Proofs.Scan.Patient
import Mathlib.Data.List.Forall2
set_option autoImplicit false

/-!
# Rounds beside a scan that does not fail

A round over a patient scan is compared with a round of the same members over a
quiet scan that has come equally far.  It either aborts and leaves every member
its outlook, or both complete and agree on the essence of every member.
-/

namespace Lockstep

/-- Two states of an operation without faults that is fed by the cursor, the
same in some view. -/
structure Operation.Paired (view : Operation → Operation) (id : CursorId)
    (op op' : Operation) :
    Prop where
  same : view op = view op'
  cursor : op.pipeline.cursor = id
  cursor' : op'.pipeline.cursor = id
  sound : Link.IsSound op.pipeline.links

namespace Operation

variable {id : CursorId} {op op' : Operation}

theorem Paired.outlook (h : Paired essence id op op') : Paired outlook id op op' :=
  ⟨outlook_congr h.sound h.same, h.cursor, h.cursor', h.sound⟩

theorem Paired.isOver (h : Paired Operation.outlook id op op') :
    op'.isOver = op.isOver := by
  rw [← isFinished_outlook, ← isFinished_outlook, h.same]

theorem Paired.isFinished (h : Paired essence id op op') :
    op'.isFinished = op.isFinished := by
  rw [← isFinished_essence, ← isFinished_essence op, h.same]

theorem Paired.refl (h : Paired Operation.outlook id op op') :
    Paired Operation.outlook id op' op' where
  same := rfl
  cursor := h.cursor'
  cursor' := h.cursor'
  sound := by
    obtain ⟨-, -, hpipeline⟩ := Operation.mk.inj h.same
    have hlinks : op.pipeline.outlook.links = op'.pipeline.outlook.links := by
      rw [hpipeline]
    have hlinks' : op.pipeline.links = op'.pipeline.links := hlinks
    rw [← hlinks']
    exact h.sound

theorem links_stop (op : Operation) (cached : Bool) :
    (op.stop cached).pipeline.links = op.pipeline.links := by
  unfold stop Pipeline.stop
  split <;> rfl

theorem Paired.stop (h : Paired Operation.outlook id op op') (ended : op.isOver = true)
    (cached cached' : Bool) :
    Paired essence id (op.stop cached) (op'.stop cached') where
  same := by
    rw [essence_stop ended, essence_stop (h.isOver.trans ended)]
    exact h.same
  cursor := (op.cursor_stop cached).trans h.cursor
  cursor' := (op'.cursor_stop cached').trans h.cursor'
  sound := by
    rw [links_stop]
    exact h.sound

theorem Paired.stop_left (h : Paired Operation.outlook id op op')
    (ended : op.isOver = true) (cached : Bool) :
    Paired Operation.outlook id (op.stop cached) op' where
  same := (outlook_stop ended cached).trans h.same
  cursor := (op.cursor_stop cached).trans h.cursor
  cursor' := h.cursor'
  sound := by
    rw [links_stop]
    exact h.sound

theorem Paired.take_failed (h : Paired Operation.outlook id op op')
    (live : op.isOver = false) (cached : Bool) (i : Interruption) :
    (op.take cached (.error i)).1 = .error i ∧
      Paired Operation.outlook id (op.take cached (.error i)).2 op' := by
  have hsame := outlook_take_failed h.sound live cached i
  rw [take_failed_of_asks (Pipeline.asks_of_isSound h.sound live)] at hsame ⊢
  exact ⟨rfl, hsame.trans h.same, h.cursor, h.cursor', h.sound⟩

theorem Paired.scansAfter (h : Paired Operation.outlook id op op')
    (live : op.isOver = false) (s : Scans) : op.scansAfter false s = (s.pull id).2 := by
  rw [scansAfter_of_asks (Pipeline.asks_of_isSound h.sound live), h.cursor]

theorem Paired.take (h : Paired Operation.outlook id op op') (live : op.isOver = false)
    (cached cached' : Bool) (progress : Progress) :
    ∃ result, (op.take cached (.ok progress)).1 = .ok result ∧
      (op'.take cached' (.ok progress)).1 = .ok result ∧
      Paired essence id (op.take cached (.ok progress)).2
        (op'.take cached' (.ok progress)).2 := by
  obtain ⟨⟨result, hresult⟩, hsound⟩ :
    (∃ result, (op.take cached (.ok progress)).1 = .ok result) ∧
      Link.IsSound (op.take cached (.ok progress)).2.pipeline.links :=
    Pipeline.take_of_isSound (p := op.pipeline.setCached cached) h.sound live progress
  obtain ⟨hsame, hessence⟩ :=
    take_congr h.sound live h.same cached cached' (.ok progress)
  exact ⟨result, hresult, hsame.symm.trans hresult, hessence,
    (op.cursor_take cached _).trans h.cursor,
      (op'.cursor_take cached' _).trans h.cursor', hsound⟩

end Operation

namespace Batch

open Operation (Paired)

variable {id : CursorId} {before : Nat} {s q : Scans} {ops ops' : List Operation}

theorem scanMoved_of_alike (h : s.Alike id q) :
    scanMoved id before s = scanMoved id before q := by
  unfold scanMoved
  rw [h.pulls, h.isExhausted]

/-! ## The pulling part -/

/-- What the pulling part of a round can come to, beside that of a round
over a quiet scan. -/
inductive PullTwin (id : CursorId) (s q : Scans) (ops' : List Operation) :
    Pulled → Pulled → Prop
  /-- both have moved -/
  | moved {stepped waiting stepped' waiting' : List Operation} {s₁ q₁ : Scans}
      (alike : s₁.Alike id q₁)
      (passed : List.Forall₂ (Paired Operation.essence id) stepped stepped')
      (behind : List.Forall₂ (Paired Operation.outlook id) waiting waiting') :
      PullTwin id s q ops' ⟨none, stepped, waiting, s₁⟩ ⟨none, stepped', waiting', q₁⟩
  /-- the one was aborted by a pull that failed, with every outlook kept -/
  | aborted {f : Failure} {stepped waiting : List Operation} {s₁ : Scans}
      {pulled : Pulled}
      (failed : (s.pull id).1 = .error (.failed f)) (alike : s₁.Alike id q)
      (kept : List.Forall₂ (Paired Operation.outlook id) (stepped ++ waiting) ops') :
      PullTwin id s q ops' ⟨some (.aborted f), stepped, waiting, s₁⟩ pulled

/-- The pulling part of a round aborts with all outlooks kept, or moves
both scans alike. -/
theorem pullTwin_pullPhase (alike : s.Alike id q)
    (hbefore : (s.cursor id).pulls = before)
    (h : List.Forall₂ (Paired Operation.outlook id) ops ops') :
    PullTwin id s q ops' (pullPhase id before ops s) (pullPhase id before ops' q) := by
  induction h with
  | nil => exact .moved alike .nil .nil
  | @cons op op' ops ops' hop hops ih =>
    cases hover : op.isOver with
    | true =>
      rw [pullPhase_of_isOver hover, pullPhase_of_isOver (hop.isOver.trans hover),
        ← scanMoved_of_alike alike]
      split
      · generalize pullPhase id before ops s = pulled at ih
        generalize pullPhase id before ops' q = pulled' at ih
        cases ih with
        | moved alike passed behind =>
          exact .moved alike (.cons (hop.stop hover _ _) passed) behind
        | aborted failed alike kept =>
          exact .aborted failed alike (.cons (hop.stop_left hover _) kept)
      · exact .moved alike (.cons (hop.stop hover _ _) .nil) hops
    | false =>
      have hlive : op'.isOver = false := hop.isOver.trans hover
      rw [pullPhase_of_live hover hop.cursor (hop.scansAfter hover s),
        pullPhase_of_live hlive hop.cursor' (hop.refl.scansAfter hlive q)]
      cases hpull : (s.pull id).1 with
      | error i =>
        obtain ⟨⟨f, rfl, htransient⟩, hended, halike⟩ := alike.pull_failed hpull
        have hunmoved : scanMoved id before (s.pull id).2 = false := by
          rw [scanMoved_of_alike halike, ← scanMoved_of_alike alike]
          unfold scanMoved
          rw [hended, hbefore]
          simp
        obtain ⟨hresult, hkept⟩ := hop.take_failed hover false (.failed f)
        have htake : op.take false (.error (.failed f)) =
            (.error (.failed f), (op.take false (.error (.failed f))).2) :=
              Prod.ext hresult rfl
        rw [htake]
        dsimp only
        rw [htransient, hunmoved]
        exact .aborted hpull halike (.cons hkept hops)
      | ok progress =>
        obtain ⟨hpull', halike⟩ := alike.pull_ok hpull
        obtain ⟨result, hresult, hresult', hpaired⟩ :=
          hop.take hover false false progress
        have hmoved := scanMoved_pull alike.isOpen hbefore hpull
        have hmoved' := scanMoved_pull alike.quiet.isOpen (alike.pulls ▸ hbefore) hpull'
        rw [hpull', hmoved, hmoved']
        generalize op.take false (.ok progress) = taken at hresult hpaired
        generalize op'.take false (.ok progress) = taken' at hresult' hpaired
        obtain ⟨_, after⟩ := taken
        obtain ⟨_, after'⟩ := taken'
        cases hresult
        cases hresult'
        simp only [Bool.true_eq_false, and_false, if_false]
        exact .moved halike (.cons hpaired .nil) hops

/-! ## The reading part -/

/-- Members that read what the cache holds agree afterwards. -/
theorem readPhase_twin (alike : s.Alike id q)
    (h : List.Forall₂ (Paired Operation.outlook id) ops ops') :
    (readPhase ops s).1 = .completed ∧ (readPhase ops' q).1 = .completed ∧
      List.Forall₂ (Paired Operation.essence id) (readPhase ops s).2.1
        (readPhase ops' q).2.1 := by
  induction h with
  | nil => exact ⟨rfl, rfl, .nil⟩
  | @cons op op' ops ops' hop hops ih =>
    obtain ⟨hend, hend', hrest⟩ := ih
    cases hover : op.isOver with
    | true =>
      rw [readPhase_of_isOver hover, readPhase_of_isOver (hop.isOver.trans hover)]
      exact ⟨hend, hend', .cons (hop.stop hover _ _) hrest⟩
    | false =>
      obtain ⟨progress, hcached⟩ := alike.exists_readCached
      obtain ⟨result, hresult, hresult', hpaired⟩ := hop.take hover true true progress
      rw [readPhase_of_live hover hop.cursor,
        readPhase_of_live (hop.isOver.trans hover) hop.cursor',
          ← alike.readCached, hcached]
      generalize op.take true (.ok progress) = taken at hresult hpaired
      generalize op'.take true (.ok progress) = taken' at hresult' hpaired
      obtain ⟨_, after⟩ := taken
      obtain ⟨_, after'⟩ := taken'
      cases hresult
      cases hresult'
      exact ⟨hend, hend', .cons hpaired hrest⟩

/-! ## The whole round -/

/-- What a round can come to, beside a round over a quiet scan. -/
inductive RoundTwin (id : CursorId) (s q : Scans) (ops' : List Operation) :
    RoundEnd × List Operation × Scans → RoundEnd × List Operation × Scans → Prop
  /-- both have completed and agree -/
  | completed {members members' : List Operation} {s₁ q₁ : Scans}
      (alike : s₁.Alike id q₁)
      (agree : List.Forall₂ (Paired Operation.essence id) members members') :
      RoundTwin id s q ops' (.completed, members, s₁) (.completed, members', q₁)
  /-- the one was aborted by a pull that failed, with every outlook kept -/
  | aborted {f : Failure} {members : List Operation} {s₁ : Scans}
      {result : RoundEnd × List Operation × Scans}
      (failed : (s.pull id).1 = .error (.failed f)) (alike : s₁.Alike id q)
      (kept : List.Forall₂ (Paired Operation.outlook id) members ops') :
      RoundTwin id s q ops' (.aborted f, members, s₁) result

/-- A round aborts with all outlooks kept, or completes as the round over a
quiet scan does. -/
theorem roundTwin_round (alike : s.Alike id q)
    (h : List.Forall₂ (Paired Operation.outlook id) ops ops') :
    RoundTwin id s q ops' (round ops s) (round ops' q) := by
  cases h with
  | nil => exact .completed alike .nil
  | @cons op op' ops ops' hop hops =>
    have hpull := pullTwin_pullPhase alike rfl (.cons hop hops)
    rw [round_cons hop.cursor, round_cons hop.cursor', ← alike.pulls]
    generalize pullPhase id (s.cursor id).pulls (op :: ops) s = pulled at hpull
    generalize pullPhase id (s.cursor id).pulls (op' :: ops') q = pulled' at hpull
    cases hpull with
    | aborted failed alike kept => exact .aborted failed alike kept
    | @moved stepped waiting stepped' waiting' s₁ q₁ alike passed behind =>
      obtain ⟨hend, hend', hread⟩ := readPhase_twin alike behind
      dsimp only
      rw [hend, hend', scans_readPhase, scans_readPhase]
      exact .completed alike (List.rel_append passed hread)

end Batch

end Lockstep
