import Lockstep.Proofs.Registry.Unlocked
import Lockstep.Proofs.Scheduler.Account
import Lockstep.Proofs.Scheduler.Pace
set_option autoImplicit false

/-!
# Calls are workers

Without what it is told, a call of a crew is a worker of a fleet.  The fleet
marks a lock on its batch where the crew keeps who holds it.  A call that finds
its batch removed goes on with it all the same, but does nothing to the registry
any more; the worker then stays where it is.

So whatever a crew does is done by a fleet, and a batch of a crew does not
overtake the one before it.
-/

namespace Lockstep

/-- The index that a call is at. -/
def Attempt.index? : Attempt → Option Nat
  | .found index | .holding index | .running index _ _ _ | .released index _ _ _ _ =>
    some index
  | .leaving report _ _ => some report.index
  | .returned _ _ _ | .refused | .crashed _ _ => none

/-- How far a worker has got when the call has, and its batch is live. -/
def Attempt.stage : Attempt → Stage
  | .found index => .found index
  | .holding index => .holding index
  | .running index _ left _ => .running index left
  | .released index _ _ _ drained => if drained then .leaving index else .idle
  | .leaving report _ _ => if report.drained then .leaving report.index else .idle
  | .returned _ _ _ | .refused | .crashed _ _ => .idle

namespace Fleet

/-- The fleet has the batches of the crew, with a mark on those that a call
holds, and a worker for every call. -/
structure Shows (f : Fleet) (c : Crew) : Prop where
  registry : f.registry.unlocked = c.registry
  scans : f.scans = c.scans
  locked : ∀ index b, f.registry.get? index = some b →
    b.locked = (c.holder index).isSome
  holds : ∀ index other, c.holder index = some other → index < c.registry.newest
  known : ∀ (call : Nat) (a : Attempt) (index : Nat), c.calls[call]? = some a →
    a.index? = some index → index < c.registry.newest
  stage : ∀ (call : Nat) (a : Attempt) (index : Nat), c.calls[call]? = some a →
    a.index? = some index →
    (c.registry.get? index).isSome = true → f.stage call = a.stage
  fresh : ∀ call, c.calls.length ≤ call → f.stage call = .idle

theorem shows_ofCapacity (capacity : Nat) (scans : Scans) :
    (ofCapacity capacity scans).Shows (Crew.ofCapacity capacity scans) where
  registry := by
    unfold ofCapacity Crew.ofCapacity Registry.ofCapacity Registry.unlocked
    simp
  scans := rfl
  locked := fun _ _ live => absurd (Registry.lt_newest_of_get? live) (Nat.not_lt_zero _)
  holds := fun _ _ held => by cases held
  known := fun _ _ _ made => by cases made
  stage := fun _ _ _ made => by cases made
  fresh := fun _ _ => rfl

namespace Shows

variable {sch : Scheduler} {f f' : Fleet} {c c' : Crew} {call index : Nat}
  {a a' : Attempt} {b : Batch}

theorem get? (h : f.Shows c) (index : Nat) :
    c.registry.get? index = (f.registry.get? index).map Batch.unlocked :=
  h.registry ▸ f.registry.get?_unlocked index

theorem newest (h : f.Shows c) : c.registry.newest = f.registry.newest :=
  h.registry ▸ rfl

/-- A live batch of the crew is one of the fleet, with a mark if it is held. -/
theorem live (h : f.Shows c) (live : c.registry.get? index = some b) :
    f.registry.get? index = some { b with locked := (c.holder index).isSome } := by
  rw [h.get?] at live
  obtain ⟨marked, hmarked, rfl⟩ := Option.map_eq_some_iff.mp live
  rw [hmarked, ← h.locked index marked hmarked]
  rfl

/-- The gate is the same for both. -/
theorem isEligible (h : f.Shows c) (sch : Scheduler) (index : Nat) (b : Batch)
    (locked : Bool) :
    sch.isEligible f.registry index { b with locked := locked } =
      sch.isEligible c.registry index b := by
  have holdest : c.registry.oldest = f.registry.oldest := h.registry ▸ rfl
  unfold Scheduler.isEligible Scheduler.predecessorRounds
  rw [holdest, h.get?, Option.map_map]
  rfl

/-- A call goes on, and its worker with it. -/
theorem goOn (h : f.Shows c) (made : c.calls[call]? = some a)
    (calls : c'.calls = c.calls.set call a')
    (others : ∀ other, other ≠ call → f'.stage other = f.stage other)
    (registry : f'.registry.unlocked = c'.registry) (scans : f'.scans = c'.scans)
    (locked : ∀ i b, f'.registry.get? i = some b → b.locked = (c'.holder i).isSome)
    (holds : ∀ i k, c'.holder i = some k → i < c.registry.newest)
    (newest : c'.registry.newest = c.registry.newest)
    (fewer : ∀ i, (c'.registry.get? i).isSome = true →
      (c.registry.get? i).isSome = true)
    (same : ∀ i, a'.index? = some i → a.index? = some i)
    (own : ∀ i, a'.index? = some i → (c'.registry.get? i).isSome = true →
      f'.stage call = a'.stage) :
    f'.Shows c' := by
  have hlt := (List.getElem?_eq_some_iff.mp made).1
  have hself : c'.calls[call]? = some a' := by rw [calls, List.getElem?_set_self hlt]
  have hothers : ∀ k, k ≠ call → c'.calls[k]? = c.calls[k]? := fun k hne => by
    rw [calls, List.getElem?_set_ne (Ne.symm hne)]
  refine ⟨registry, scans, locked, fun i k held => newest ▸ holds i k held, ?_, ?_, ?_⟩
  · intro k found i hfound hi
    rw [newest]
    by_cases hsame : k = call
    · rw [hsame, hself] at hfound
      cases hfound
      exact h.known call a i made (same i hi)
    · exact h.known k found i (hothers k hsame ▸ hfound) hi
  · intro k found i hfound hi hlive
    by_cases hsame : k = call
    · rw [hsame, hself] at hfound
      cases hfound
      exact hsame ▸ own i hi hlive
    · rw [others k hsame]
      exact h.stage k found i (hothers k hsame ▸ hfound) hi (fewer i hlive)
  · intro k hk
    rw [calls, List.length_set] at hk
    rw [others k (Nat.ne_of_gt (Nat.lt_of_lt_of_le hlt hk))]
    exact h.fresh k hk

/-- A call goes on and its worker stays where it is, for the part is none of a
worker, or the batch that the call is at is not live. -/
theorem stay (h : f.Shows c) (made : c.calls[call]? = some a)
    {holder : Nat → Option Nat} {metrics : Metrics} {removed : Nat → Option Batch}
    (held : ∀ i, holder i = c.holder i ∨ a.index? = some i ∧ c.registry.get? i = none)
    (same : ∀ i, a'.index? = some i → a.index? = some i)
    (own : ∀ i, a'.index? = some i → (c.registry.get? i).isSome = true →
      a.stage = a'.stage) :
    f.Shows
      ({ c with
        holder := holder
        metrics := metrics
        removed := removed }.setCall call a') := by
  refine h.goOn made rfl (fun _ _ => rfl) h.registry h.scans ?_ ?_ rfl
    (fun _ hlive => hlive) same ?_
  · intro i b live
    show b.locked = (holder i).isSome
    rcases held i with hsame | ⟨-, hgone⟩
    · exact hsame ▸ h.locked i b live
    · rw [h.get?, live] at hgone
      cases hgone
  · intro i k hk
    rcases held i with hsame | ⟨hindex, -⟩
    · exact h.holds i k (hsame ▸ hk)
    · exact h.known call a i made hindex
  · intro i hi hlive
    exact (h.stage call a i made (same i hi) hlive).trans (own i hi hlive)

/-- A call goes on and its worker goes to a stage, and neither changes a batch. -/
theorem turn (h : f.Shows c) (made : c.calls[call]? = some a) (stage : Stage)
    (same : ∀ i, a'.index? = some i → a.index? = some i)
    (own : ∀ i, a'.index? = some i → stage = a'.stage) :
    (f.setStage call stage).Shows (c.setCall call a') :=
  h.goOn made rfl (fun _ hne => stage_setStage_of_ne hne ..) h.registry h.scans h.locked
    h.holds rfl
    (fun _ hlive => hlive) same fun i hi _ => (stage_setStage_self ..).trans (own i hi)

/-- A call goes on with a live batch, which its worker changes in the same way. -/
theorem change (h : f.Shows c) (sound : c.registry.Sound)
    (made : c.calls[call]? = some a) (live : c.registry.get? index = some b)
    {b' : Batch} (s : Scans) {holder : Nat → Option Nat}
    (locked : b'.locked = (holder index).isSome)
    (others : ∀ i, i ≠ index → holder i = c.holder i) (stage : Stage)
    (same : ∀ i, a'.index? = some i → a.index? = some i)
    (own : ∀ i, a'.index? = some i → stage = a'.stage) :
    ({ f.replace index b' with scans := s }.setStage call stage).Shows
      ({ c with
        registry := c.registry.replace index b'.unlocked
        holder := holder
        scans := s }.setCall call a') := by
  have hsound : f.registry.Sound := Registry.sound_unlocked.mp (h.registry ▸ sound)
  have hmarked := h.live live
  refine h.goOn made rfl (fun other hne => stage_setStage_of_ne hne ..) ?_ rfl ?_ ?_ ?_
    ?_ same ?_
  · show (f.registry.replace index b').unlocked = c.registry.replace index b'.unlocked
    rw [Registry.replace_unlocked, h.registry]
  · intro i found hfound
    change (f.registry.replace index b').get? i = some found at hfound
    show found.locked = (holder i).isSome
    by_cases hsame : i = index
    · rw [hsame, Registry.get?_replace_self hsound hmarked] at hfound
      cases hfound
      rw [hsame, locked]
    · rw [Registry.get?_replace_of_ne hsound hmarked hsame] at hfound
      rw [others i hsame]
      exact h.locked i found hfound
  · intro i k hk
    by_cases hsame : i = index
    · exact hsame ▸ Registry.lt_newest_of_get? live
    · exact h.holds i k (others i hsame ▸ hk)
  · exact Registry.newest_replace ..
  · intro i hlive
    change ((c.registry.replace index b'.unlocked).get? i).isSome = true at hlive
    by_cases hsame : i = index
    · rw [hsame, live]
      rfl
    · rwa [Registry.get?_replace_of_ne sound live hsame] at hlive
  · intro i hi _
    exact (stage_setStage_self ..).trans (own i hi)

/-- A worker that takes a lock or gives it back leaves the batch as it is. -/
theorem mark (h : f.Shows c) (sound : c.registry.Sound) (made : c.calls[call]? = some a)
    (live : c.registry.get? index = some b) (holder : Option Nat) (stage : Stage)
    (same : ∀ i, a'.index? = some i → a.index? = some i)
    (own : ∀ i, a'.index? = some i → stage = a'.stage) :
    ((f.replace index { b with locked := holder.isSome }).setStage call stage).Shows
      ({ c with holder := Function.update c.holder index holder }.setCall call a') := by
  have hlocked : ({ b with locked := holder.isSome } : Batch).locked =
      (Function.update c.holder index holder index).isSome := by
        rw [Function.update_self]
  have hchanged := h.change sound made live c.scans hlocked
    (fun i hne => Function.update_of_ne hne ..)
    stage same own
  have hback :
    c.registry.replace index ({ b with locked := holder.isSome } : Batch).unlocked =
      c.registry := by
    rw [← h.registry, ← Registry.replace_unlocked]
    exact Registry.unlocked_replace_locked (h.live live) holder.isSome
  have hscans :
    ({ f.replace index { b with locked := holder.isSome } with scans := c.scans } :
      Fleet) =
      f.replace index { b with locked := holder.isSome } := by rw [← h.scans]; rfl
  rw [hback, hscans] at hchanged
  exact hchanged

/-! ## Parts -/

theorem insert (h : f.Shows c) (sound : c.registry.Sound) (id : String)
    (operations : List Operation) :
    (f.insert id operations).Shows (c.insert id operations) := by
  unfold Fleet.insert Crew.insert
  rw [h.scans]
  cases hform : Batch.form id operations c.scans with
  | error failure => exact h
  | ok b =>
    have hunlocked := Batch.unlocked_of_form hform
    have herased : b.unlocked = b := by
      unfold Batch.unlocked
      rw [← hunlocked]
    have hinsert := f.registry.insert?_unlocked b
    rw [h.registry, herased] at hinsert
    dsimp only
    cases hfleet : f.registry.insert? b with
    | none =>
      rw [hfleet] at hinsert
      rw [hinsert]
      exact h
    | some inserted =>
      obtain ⟨index, r⟩ := inserted
      rw [hfleet] at hinsert
      rw [hinsert]
      have hsound : f.registry.Sound := Registry.sound_unlocked.mp (h.registry ▸ sound)
      obtain ⟨rfl, hnewest, hnew, hothers⟩ := Registry.get?_of_insert? hsound hfleet
      have hgrown : ∀ i, i < c.registry.newest → i < r.newest := fun i hlt => by
        rw [h.newest] at hlt
        omega
      dsimp only [Option.map_some]
      refine ⟨rfl, rfl, ?_, fun i k held => hgrown i (h.holds i k held),
        fun k a i made hi => hgrown i (h.known k a i made hi), ?_, h.fresh⟩
      · intro i found live
        by_cases hsame : i = f.registry.newest
        · subst hsame
          rw [hnew] at live
          cases live
          cases hheld : c.holder f.registry.newest with
          | none => exact hunlocked
          | some other =>
            exact absurd (h.holds _ other hheld) (h.newest ▸ Nat.lt_irrefl _)
        · rw [hothers i hsame] at live
          exact h.locked i found live
      · intro k a i made hi hlive
        refine h.stage k a i made hi ?_
        have hne : i ≠ f.registry.newest :=
          Nat.ne_of_lt (h.newest ▸ h.known k a i made hi)
        change (r.unlocked.get? i).isSome = true at hlive
        rw [Registry.get?_unlocked, hothers i hne, Option.isSome_map] at hlive
        rwa [h.get?, Option.isSome_map]

/-- A new call is made, and the worker of its number is at the same batch or idle. -/
theorem makeCall (h : f.Shows c) (stage : Stage)
    (known : ∀ i, a.index? = some i → i < c.registry.newest)
    (own : ∀ i, a.index? = some i → stage = a.stage) :
    (f.setStage c.calls.length stage).Shows (c.makeCall a) := by
  have hcalls : ∀ (k : Nat) (found : Attempt), (c.makeCall a).calls[k]? = some found →
      k = c.calls.length ∧ found = a ∨ k ≠ c.calls.length ∧
          c.calls[k]? = some found := by
    intro k found hfound
    by_cases hsame : k = c.calls.length
    · rw [hsame, Crew.calls_makeCall_length] at hfound
      exact .inl ⟨hsame, (Option.some.inj hfound).symm⟩
    · refine .inr ⟨hsame, ?_⟩
      have hlt := (List.getElem?_eq_some_iff.mp hfound).1
      rw [Crew.makeCall, List.length_append, List.length_singleton] at hlt
      rwa [Crew.makeCall, List.getElem?_append_left (by omega)] at hfound
  refine ⟨h.registry, h.scans, h.locked, h.holds, ?_, ?_, ?_⟩
  · intro k found i hfound hi
    rcases hcalls k found hfound with ⟨-, rfl⟩ | ⟨-, hold⟩
    · exact known i hi
    · exact h.known k found i hold hi
  · intro k found i hfound hi hlive
    rcases hcalls k found hfound with ⟨rfl, rfl⟩ | ⟨hne, hold⟩
    · exact (stage_setStage_self ..).trans (own i hi)
    · exact (stage_setStage_of_ne hne ..).trans (h.stage k found i hold hi hlive)
  · intro k hk
    rw [Crew.makeCall, List.length_append, List.length_singleton] at hk
    exact (stage_setStage_of_ne (by omega) ..).trans (h.fresh k (by omega))

theorem look (h : f.Shows c) (now index : Nat) :
    (f.look c.calls.length now index).Shows (c.look now index) := by
  have hdue : (f.registry.get? index).any (·.retryDue now) =
      (c.registry.get? index).any (·.retryDue now) := by
    rw [h.get?, Option.any_map]
    rfl
  have hidle := h.fresh c.calls.length (Nat.le_refl _)
  unfold Fleet.look Crew.look
  simp only [hidle, hdue]
  split
  · rename_i hlive
    obtain ⟨b, live, -⟩ := Option.any_eq_true .. |>.mp hlive
    refine h.makeCall (.found index) (fun i hi => ?_) fun i hi => rfl
    cases hi
    exact Registry.lt_newest_of_get? live
  · have hsame : f.setStage c.calls.length .idle = f := by
      unfold setStage
      rw [← hidle, Function.update_eq_self]
    have hmade := h.makeCall (a := .refused) .idle nofun nofun
    rwa [hsame] at hmade

/-- A lock of a batch that is not live is none of the fleet. -/
theorem held_update (c : Crew) (index? : a.index? = some index)
    (gone : c.registry.get? index = none) (holder : Option Nat) (i : Nat) :
    Function.update c.holder index holder i = c.holder i ∨
      a.index? = some i ∧ c.registry.get? i = none := by
  by_cases hsame : i = index
  · exact .inr ⟨hsame ▸ index?, hsame ▸ gone⟩
  · exact .inl (Function.update_of_ne hsame ..)

/-- Nothing is asked of the worker of a call at a batch that is not live. -/
theorem own_of_gone {P : Prop} (index? : a'.index? = some index)
    (gone : c.registry.get? index = none) (i : Nat) (hi : a'.index? = some i)
    (hlive : (c.registry.get? i).isSome = true) : P := by
  cases index?.symm.trans hi
  rw [gone] at hlive
  cases hlive

theorem lock (h : f.Shows c) (sound : c.registry.Sound) (sch : Scheduler) (call : Nat) :
    ∃ calls, (f.answerAll sch calls).Shows (c.lock call) := by
  unfold Crew.lock
  split
  · rename_i index hfound
    cases live : c.registry.get? index with
    | none =>
      refine ⟨[], ?_⟩
      split
      · exact h.stay hfound (fun _ => .inl rfl) nofun nofun
      · exact h.stay hfound (held_update c rfl live _) (fun _ hi => hi)
          (own_of_gone rfl live)
    | some b =>
      have hstage : f.stage call = .found index :=
        h.stage call _ index hfound rfl (by rw [live]; rfl)
      have hmarked := h.live live
      refine ⟨[.lock call], ?_⟩
      show (f.lock call).Shows _
      unfold Fleet.lock
      simp only [hstage, hmarked]
      cases hheld : c.holder index with
      | some other => exact h.turn hfound .idle nofun nofun
      | none =>
        exact h.mark sound hfound live (some call) (.holding index) (fun _ hi => hi)
          (fun i hi => rfl)
  · exact ⟨[], h⟩

theorem gate (h : f.Shows c) (sound : c.registry.Sound) (sch : Scheduler) (call : Nat) :
    ∃ calls, (f.answerAll sch calls).Shows (Crew.gate sch c call) := by
  unfold Crew.gate
  split
  · rename_i index hholding
    split
    · exact ⟨[], h⟩
    · rename_i b hbatch
      cases live : c.registry.get? index with
      | none =>
        refine ⟨[], ?_⟩
        split
        · exact h.stay hholding (fun _ => .inl rfl) (fun _ hi => hi)
            (own_of_gone rfl live)
        · exact h.stay hholding (held_update c rfl live _) nofun nofun
      | some found =>
        rw [Crew.batch?_of_get? live] at hbatch
        cases hbatch
        have hstage : f.stage call = .holding index :=
          h.stage call _ index hholding rfl (by rw [live]; rfl)
        have hmarked := h.live live
        refine ⟨[.gate call], ?_⟩
        show (Fleet.gate sch f call).Shows _
        unfold Fleet.gate Fleet.unlock
        simp only [hstage, hmarked, h.isEligible, Registry.setLocked_of_get? hmarked]
        split
        · exact h.turn hholding (.running index sch.stride) (fun _ hi => hi)
            (fun i hi => rfl)
        · exact h.mark sound hholding live none .idle nofun nofun
  · exact ⟨[], h⟩

theorem release (h : f.Shows c) (sound : c.registry.Sound) (sch : Scheduler) (call : Nat) :
    ∃ calls, (f.answerAll sch calls).Shows (c.release call) := by
  unfold Crew.release
  split
  · rename_i index before work hrunning
    split
    · exact ⟨[], h⟩
    · rename_i b hbatch
      cases live : c.registry.get? index with
      | none =>
        exact ⟨[], h.stay hrunning (held_update c rfl live _) (fun _ hi => hi)
          (own_of_gone rfl live)⟩
      | some found =>
        rw [Crew.batch?_of_get? live] at hbatch
        cases hbatch
        have hstage : f.stage call = .running index 0 :=
          h.stage call _ index hrunning rfl (by rw [live]; rfl)
        have hmarked := h.live live
        refine ⟨[.release call], ?_⟩
        show (Fleet.release f call).Shows _
        unfold Fleet.release Fleet.unlock
        simp only [hstage, hmarked, Registry.setLocked_of_get? hmarked, Option.all_some]
        exact h.mark sound hrunning live none _ (fun _ hi => hi) (fun i hi => rfl)
  · exact ⟨[], h⟩

theorem read (h : f.Shows c) (call : Nat) : f.Shows (c.read call) := by
  unfold Crew.read
  split
  · rename_i hreleased
    split
    · exact h
    · exact h.stay hreleased (fun _ => .inl rfl) (fun _ hi => hi) (fun _ _ _ => rfl)
  · exact h

theorem remove (h : f.Shows c) (sound : c.registry.Sound) (sch : Scheduler) (call : Nat) :
    ∃ calls, (f.answerAll sch calls).Shows (c.remove call) := by
  unfold Crew.remove
  split
  · rename_i report own grown hleaving
    have hstay : f.Shows (c.setCall call (.returned report own grown)) :=
      h.stay hleaving (fun _ => .inl rfl) nofun nofun
    cases hdrained : report.drained with
    | false => exact ⟨[], hstay⟩
    | true =>
      have hremove := f.registry.remove?_unlocked report.index
      rw [h.registry] at hremove
      rw [if_pos rfl]
      unfold Crew.drop
      rw [hremove]
      cases hfleet : f.registry.remove? report.index with
      | none => exact ⟨[], hstay⟩
      | some removed =>
        obtain ⟨b, r⟩ := removed
        have hsound : f.registry.Sound :=
          Registry.sound_unlocked.mp (h.registry ▸ sound)
        obtain ⟨live, -, hnewest, hgone, hothers⟩ :=
          Registry.get?_of_remove? hsound hfleet
        have hlive : (c.registry.get? report.index).isSome = true := by
          rw [h.get?, live]; rfl
        have hstage : f.stage call = .leaving report.index := by
          rw [h.stage call _ report.index hleaving rfl hlive, Attempt.stage,
            if_pos hdrained]
        have hfewer : ∀ i found, r.get? i = some found →
            f.registry.get? i = some found := by
          intro i found hfound
          by_cases hsame : i = report.index
          · rw [hsame, hgone] at hfound
            cases hfound
          · rwa [hothers i hsame] at hfound
        refine ⟨[.remove call], ?_⟩
        show (f.remove call).Shows _
        unfold Fleet.remove
        simp only [hstage, hfleet]
        refine h.goOn hleaving rfl (fun _ hne => stage_setStage_of_ne hne ..) rfl h.scans
          (fun i found hfound => h.locked i found (hfewer i found hfound)) h.holds ?_ ?_
            nofun nofun
        · exact hnewest.trans h.newest.symm
        · intro i hi
          change (r.unlocked.get? i).isSome = true at hi
          rw [Registry.get?_unlocked, Option.isSome_map] at hi
          obtain ⟨found, hfound⟩ := Option.isSome_iff_exists.mp hi
          rw [h.get?, hfewer i found hfound]
          rfl
  · exact ⟨[], h⟩

/-- What a round leaves of a live batch, the worker leaves of its marked one. -/
theorem take (h : f.Shows c) (kept : c.Kept) (sch : Scheduler)
    {before left now : Nat} {work work' : Work}
    (running : c.calls[call]? = some (.running index before (left + 1) work))
    (live : c.registry.get? index = some b) {a : Advance}
    (unlocked : a.batch.locked = false) :
    (Fleet.take sch f call now index left (a.setLocked (c.holder index).isSome)).Shows
      (Crew.take sch c call now index before left work' a) := by
  have hgone : c.removed index = none := by
    refine Option.eq_none_iff_forall_ne_some.mpr fun b' removed => ?_
    rw [(kept.gone index b' removed).2.1] at live
    cases live
  have herased : ∀ locked, ({ waiting sch now a with locked := locked } : Batch).unlocked =
      waiting sch now a := by
    intro locked
    have hwaiting : (waiting sch now a).locked = false := by
      unfold waiting
      split <;> exact unlocked
    unfold Batch.unlocked
    rw [← hwaiting]
  -- the batch goes back in its place, whatever becomes of the lock
  have hchanged : ∀ (holder : Nat → Option Nat) (stage : Stage) (a' : Attempt),
      (∀ i, i ≠ index → holder i = c.holder i) →
      (∀ i, a'.index? = some i → i = index ∧ stage = a'.stage) →
      ({ f.replace index { waiting sch now a with locked := (holder index).isSome } with
          scans := a.scans }.setStage call stage).Shows
        ({ c.put index (waiting sch now a) with
          scans := a.scans
          holder := holder }.setCall call a') := by
    intro holder stage a' others own
    have hlocked :
      ({ waiting sch now a with locked := (holder index).isSome } : Batch).locked =
        (holder index).isSome := rfl
    have h := h.change kept.sound running live a.scans hlocked others stage
      (fun i hi => congrArg some (own i hi).1.symm) fun i hi => (own i hi).2
    rw [herased] at h
    rw [Crew.put_of_live hgone]
    exact h
  obtain ⟨ending, left', s, deliveries⟩ := a
  cases ending with
  | ran | aborted f | failed members f =>
    exact hchanged c.holder _ _ (fun _ _ => rfl) fun i hi =>
      ⟨(Option.some.inj hi).symm, rfl⟩
  | crashed crash =>
    have hcrashed := hchanged (Function.update c.holder index none) .idle
      (.crashed index work'.rounds) (fun i hne => Function.update_of_ne hne ..) nofun
    rw [Function.update_self] at hcrashed
    exact hcrashed

theorem round (h : f.Shows c) (kept : c.Kept) (sch : Scheduler) (call : Nat)
    (receiver : Receiver) (now : Nat) :
    ∃ calls, (f.answerAll sch calls).Shows (Crew.round sch c call receiver now) := by
  unfold Crew.round
  split
  · rename_i index before left work hrunning
    split
    · exact ⟨[], h⟩
    · rename_i b hbatch
      cases live : c.registry.get? index with
      | none =>
        -- a batch that was removed has no members, so its rounds do nothing
        have hremoved : c.removed index = some b := by
          rwa [Crew.batch?, live, Option.none_or] at hbatch
        have hempty := (kept.gone index b hremoved).2.2
        have hregistry := Crew.registry_put_of_gone live b
        refine ⟨[], ?_⟩
        dsimp only
        rw [Scheduler.guardedAdvance_of_isEmpty hempty]
        have hput : Crew.take sch c call now index before left
          (work.after b ⟨.ran false, b, c.scans, []⟩)
            ⟨.ran false, b, c.scans, []⟩ = { c with
              removed := (c.put index b).removed }.setCall call
                (.running index before left
                (work.after b ⟨.ran false, b, c.scans, []⟩)) := by
          show { c.put index b with scans := c.scans }.setCall call _ = _
          unfold Crew.put at hregistry ⊢
          dsimp only at hregistry ⊢
          rw [hregistry]
        rw [hput]
        exact h.stay hrunning (fun _ => .inl rfl) (fun _ hi => hi)
          (own_of_gone rfl live)
      | some found =>
        rw [Crew.batch?_of_get? live] at hbatch
        cases hbatch
        have hstage : f.stage call = .running index (left + 1) :=
          h.stage call _ index hrunning rfl (by rw [live]; rfl)
        have hmarked := h.live live
        have hunlocked : b.locked = false := by
          have herased := h.get? index
          rw [live, hmarked] at herased
          exact congrArg Batch.locked (Option.some.inj herased)
        refine ⟨[.round call receiver now], ?_⟩
        show (Fleet.round sch f call receiver now).Shows _
        unfold Fleet.round
        simp only [hstage, hmarked, Scheduler.guardedAdvance_setLocked]
        rw [h.scans]
        exact h.take kept sch hrunning live
          ((Scheduler.locked_guardedAdvance ..).trans hunlocked)
  · exact ⟨[], h⟩

/-- Every part of a crew is done by the fleet that shows it, in one part or none. -/
theorem answer (h : f.Shows c) (kept : c.Kept) (sch : Scheduler) (part : CrewPart) :
    ∃ calls, (f.answerAll sch calls).Shows (c.answer sch part) := by
  cases part with
  | insert id operations =>
    exact ⟨[.insert id operations], h.insert kept.sound id operations⟩
  | move scans =>
    exact ⟨[.move scans], h.registry, rfl, h.locked, h.holds, h.known, h.stage, h.fresh⟩
  | look now index => exact ⟨[.look c.calls.length now index], h.look now index⟩
  | lock call => exact h.lock kept.sound sch call
  | gate call => exact h.gate kept.sound sch call
  | round call receiver now => exact h.round kept sch call receiver now
  | release call => exact h.release kept.sound sch call
  | read call => exact ⟨[], h.read call⟩
  | remove call => exact h.remove kept.sound sch call

theorem answerAll (h : f.Shows c) (kept : c.Kept) (sch : Scheduler)
    (parts : List CrewPart) :
    ∃ calls, (f.answerAll sch calls).Shows (c.answerAll sch parts) := by
  induction parts generalizing f c with
  | nil => exact ⟨[], h⟩
  | cons part parts ih =>
    obtain ⟨first, hfirst⟩ := h.answer kept sch part
    obtain ⟨others, hothers⟩ := ih hfirst (kept.step (Crew.step_answer sch c part))
    refine ⟨first ++ others, ?_⟩
    rw [Fleet.answerAll_append]
    exact hothers

end Shows

end Fleet

/-! ## Runs -/

namespace Crew

/-- Whatever calls do in whatever order, there are workers that do it. -/
theorem exists_fleet (sch : Scheduler) (capacity : Nat) (scans : Scans)
    (parts : List CrewPart) :
    ∃ calls, ((Fleet.ofCapacity capacity scans).answerAll sch calls).Shows
      ((ofCapacity capacity scans).answerAll sch parts) :=
  (Fleet.shows_ofCapacity capacity scans).answerAll
    (kept_ofCapacity capacity scans) sch parts

/-- What `advanceIndex` leaves of a registry, whatever was done to it before,
workers leave of it. -/
theorem exists_fleet_of_advanceIndex (sch : Scheduler) (capacity : Nat) (scans : Scans)
    (parts : List CrewPart) (receiver : Receiver) (now index : Nat) :
    let c := (ofCapacity capacity scans).answerAll sch parts
    let turn := sch.advanceIndex receiver now index c.registry c.scans c.metrics
    c.holder index = none → ∃ calls,
      ((Fleet.ofCapacity capacity scans).answerAll sch calls).registry.unlocked =
        turn.registry ∧
        ((Fleet.ofCapacity capacity scans).answerAll sch calls).scans = turn.scans := by
  intro c turn free
  have hkept : c.Kept := ((tallied_ofCapacity capacity scans).answerAll sch parts).kept
  obtain ⟨calls, hshows⟩ := exists_fleet sch capacity scans parts
  cases live : c.registry.get? index with
  | none =>
    have hidle : turn =
        { report := none, registry := c.registry, scans := c.scans,
          metrics := c.metrics } := by
      simp only [turn, Scheduler.advanceIndex, live]
    rw [hidle]
    exact ⟨calls, hshows.registry, hshows.scans⟩
  | some b =>
    have hgone : c.removed index = none := by
      refine Option.eq_none_iff_forall_ne_some.mpr fun b' removed => ?_
      rw [(hkept.gone index b' removed).2.1] at live
      cases live
    have hunlocked : ∀ b, c.registry.get? index = some b → b.locked = false := by
      intro b live
      have herased := hshows.get? index
      rw [live, hshows.live live] at herased
      exact congrArg Batch.locked (Option.some.inj herased)
    obtain ⟨hregistry, hscans, -⟩ :=
      @answerAll_attempt sch c now index receiver hkept.sound hgone free hunlocked
    obtain ⟨calls, hshows⟩ := exists_fleet sch capacity scans
      (parts ++ .look now index :: attempt sch.stride c.calls.length receiver now)
    have happend : (ofCapacity capacity scans).answerAll sch
        (parts ++ .look now index :: attempt sch.stride c.calls.length receiver now) =
        c.answerAll sch
            (.look now index :: attempt sch.stride c.calls.length receiver now) :=
      List.foldl_append
    rw [happend] at hshows
    exact ⟨calls, hshows.registry.trans hregistry, hshows.scans.trans hscans⟩

/-- So a live batch of a crew has no more rounds than the live batch before it,
as long as these can be counted. -/
theorem rounds_le_of_get? (sch : Scheduler) (capacity : Nat) (scans : Scans)
    (parts : List CrewPart) {index : Nat} {before b : Batch}
    (hbefore : ((ofCapacity capacity scans).answerAll sch parts).registry.get? index =
      some before)
    (hlive : ((ofCapacity capacity scans).answerAll sch parts).registry.get?
      (index + 1) = some b) (counted : before.rounds < maxRounds) :
    b.rounds ≤ before.rounds := by
  obtain ⟨calls, hshows⟩ := exists_fleet sch capacity scans parts
  have hpaced := (Fleet.paced_ofCapacity capacity scans).answerAll sch calls
  have hreached := hpaced.behind index _ (hshows.live hlive) _ (hshows.live hbefore)
  dsimp only at hreached
  omega

end Crew

end Lockstep
