import Lockstep.Proofs.Batch.Formation
import Lockstep.Proofs.Scheduler.Fleet
set_option autoImplicit false

/-!
# Successors stay behind

The gate is checked once for several rounds, and while these are run the batch
before may be advanced, fail or leave.  What holds throughout is that the batch
before, if it is still live, has at least as many rounds as the one behind it
will have when the rounds that its worker has left are run.  An index that has
lost its batch never gets another, so nobody can come in between later.
-/

namespace Lockstep

/-- The batch of an index, if it is live, has run so many rounds, or as many
as can be counted. -/
def Registry.Reached (r : Registry) (index rounds : Nat) : Prop :=
  ∀ b, r.get? index = some b → min rounds maxRounds ≤ b.rounds

namespace Registry.Reached

variable {r r' : Registry} {index rounds rounds' : Nat}

theorem mono (h : r.Reached index rounds) (hle : rounds' ≤ rounds) :
    r.Reached index rounds' := by
  intro b hb
  have hreached := h b hb
  omega

theorem congr (h : r.Reached index rounds) (same : r'.get? index = r.get? index) :
    r'.Reached index rounds := by
  intro b hb
  exact h b (same ▸ hb)

/-- Replacing a batch by one with at least as many rounds takes no lead away. -/
theorem replace (h : r.Reached index rounds) (hr : r.Sound) {other : Nat} {b b' : Batch}
    (live : r.get? other = some b) (more : b.rounds ≤ b'.rounds) :
    (r.replace other b').Reached index rounds := by
  by_cases hsame : index = other
  · subst hsame
    intro found hfound
    rw [get?_replace_self hr live] at hfound
    cases hfound
    exact Nat.le_trans (h b live) more
  · exact h.congr (get?_replace_of_ne hr live hsame b')

end Registry.Reached

/-- An open gate says that the batch before has the lead of a stride. -/
theorem Scheduler.reached_of_isEligible {sch : Scheduler} {r : Registry} {index : Nat}
    {b : Batch} (h : sch.isEligible r (index + 1) b = true) :
    r.Reached index (b.rounds + sch.stride) := by
  intro before hbefore
  have hinside : ¬ index + 1 ≤ r.oldest := by
    have hge := (Registry.inWindow_iff.mp (Registry.inWindow_of_get? hbefore)).1
    omega
  unfold isEligible predecessorRounds at h
  rw [if_neg hinside, Nat.add_sub_cancel, hbefore] at h
  exact of_decide_eq_true h

namespace Fleet

/-- Every lock is held by one worker at most and marked on its batch, and
every live batch is behind the one before it, even when the rounds that its
worker has left are run. -/
structure Paced (f : Fleet) : Prop where
  sound : f.registry.Sound
  known : ∀ worker index, (f.stage worker).held? = some index →
    index < f.registry.newest
  locked : ∀ worker index b, (f.stage worker).held? = some index →
    f.registry.get? index = some b →
    b.locked = true
  alone : ∀ worker other index, (f.stage worker).held? = some index →
    (f.stage other).held? = some index → worker = other
  behind : ∀ index b, f.registry.get? (index + 1) = some b →
    f.registry.Reached index b.rounds
  budget : ∀ worker index left b, f.stage worker = .running (index + 1) left →
    f.registry.get? (index + 1) = some b → f.registry.Reached index (b.rounds + left)

theorem paced_ofCapacity (capacity : Nat) (scans : Scans) :
    (ofCapacity capacity scans).Paced where
  sound := Registry.sound_ofCapacity capacity
  known := fun _ _ held => by cases held
  locked := fun _ _ _ held => by cases held
  alone := fun _ _ _ held => by cases held
  behind := fun _ _ live => absurd (Registry.lt_newest_of_get? live) (Nat.not_lt_zero _)
  budget := fun _ _ _ _ running => by cases running

namespace Paced

variable {f : Fleet} {worker index : Nat} {stage : Stage} {b b' : Batch}

/-- A worker that holds no lock, or the one that it held, leaves the
others as they are. -/
theorem setStage (h : f.Paced)
    (held : ∀ i, stage.held? = some i → (f.stage worker).held? = some i)
    (budget : ∀ i left b, stage = .running (i + 1) left →
      f.registry.get? (i + 1) = some b → f.registry.Reached i (b.rounds + left)) :
    (f.setStage worker stage).Paced := by
  have hheld : ∀ other i, ((f.setStage worker stage).stage other).held? = some i →
      (f.stage other).held? = some i := by
    intro other i hother
    rcases held_setStage hother with ⟨rfl, hheld⟩ | ⟨-, hheld⟩
    · exact held i hheld
    · exact hheld
  refine ⟨h.sound, fun other i hother => h.known other i (hheld other i hother),
    fun other i b hother => h.locked other i b (hheld other i hother),
    fun w other i hw hother => h.alone w other i (hheld w i hw) (hheld other i hother),
      h.behind, ?_⟩
  intro other i left b hrunning hlive
  by_cases hsame : other = worker
  · subst hsame
    rw [stage_setStage_self] at hrunning
    exact budget i left b hrunning hlive
  · rw [stage_setStage_of_ne hsame] at hrunning
    exact h.budget other i left b hrunning hlive

theorem setStage_free (h : f.Paced) (free : stage.held? = none) :
    (f.setStage worker stage).Paced := by
  refine h.setStage (fun i hi => ?_) fun i left b hrunning => ?_
  · rw [free] at hi
    cases hi
  · rw [hrunning] at free
    cases free

/-- A worker that nobody shares a lock with may change the batch, as long as it
stays behind the one before it. -/
theorem replace (h : f.Paced) {s : Scans} (live : f.registry.get? index = some b)
    (alone : ∀ other, other ≠ worker → (f.stage other).held? ≠ some index)
    (rounds : b.rounds ≤ b'.rounds)
    (held : ∀ i, stage.held? = some i → i = index ∧ b'.locked = true)
    (reached : ∀ before, index = before + 1 →
      f.registry.Reached before (b'.rounds + stage.left)) :
    ({ f.replace index b' with scans := s }.setStage worker stage).Paced := by
  have hself : (f.registry.replace index b').get? index = some b' :=
    Registry.get?_replace_self h.sound live b'
  have hothers : ∀ i, i ≠ index → (f.registry.replace index b').get? i =
      f.registry.get? i :=
    fun i hne => Registry.get?_replace_of_ne h.sound live hne b'
  -- whoever holds a lock afterwards is the worker with its own, or held it before
  have hheld : ∀ other i,
      (({ f.replace index b' with scans := s }.setStage worker stage).stage
        other).held? = some i →
      other = worker ∧ i = index ∧ b'.locked = true ∨
        other ≠ worker ∧ i ≠ index ∧ (f.stage other).held? = some i := by
    intro other i hother
    rcases held_setStage hother with ⟨rfl, hheld⟩ | ⟨hne, hheld⟩
    · exact .inl ⟨rfl, held i hheld⟩
    · refine .inr ⟨hne, ?_, hheld⟩
      rintro rfl
      exact alone other hne hheld
  refine ⟨h.sound.replace index b', ?_, ?_, ?_, ?_, ?_⟩
  · intro other i hother
    show i < (f.registry.replace index b').newest
    rw [Registry.newest_replace]
    rcases hheld other i hother with ⟨-, rfl, -⟩ | ⟨-, -, hbefore⟩
    · exact Registry.lt_newest_of_get? live
    · exact h.known other i hbefore
  · intro other i found hother hfound
    change (f.registry.replace index b').get? i = some found at hfound
    rcases hheld other i hother with ⟨-, rfl, hlocked⟩ | ⟨-, hne, hbefore⟩
    · rw [hself] at hfound
      cases hfound
      exact hlocked
    · rw [hothers i hne] at hfound
      exact h.locked other i found hbefore hfound
  · intro w other i hw hother
    rcases hheld w i hw with ⟨rfl, rfl, -⟩ | ⟨-, hne, hbefore⟩
    · rcases hheld other i hother with ⟨rfl, -, -⟩ | ⟨-, hne, -⟩
      · rfl
      · exact absurd rfl hne
    · rcases hheld other i hother with ⟨-, hsame, -⟩ | ⟨-, -, hbefore'⟩
      · exact absurd hsame hne
      · exact h.alone w other i hbefore hbefore'
  · intro i found hfound
    change (f.registry.replace index b').get? (i + 1) = some found at hfound
    refine Registry.Reached.replace ?_ h.sound live rounds
    by_cases hsame : i + 1 = index
    · rw [hsame, hself] at hfound
      cases hfound
      exact (reached i hsame.symm).mono (Nat.le_add_right _ _)
    · rw [hothers _ hsame] at hfound
      exact h.behind i found hfound
  · intro other i left found hrunning hfound
    change (f.registry.replace index b').get? (i + 1) = some found at hfound
    refine Registry.Reached.replace ?_ h.sound live rounds
    rcases hheld other (i + 1) (by rw [hrunning]; rfl)
      with ⟨rfl, hsame, -⟩ | ⟨hne, hother, -⟩
    · rw [hsame, hself] at hfound
      cases hfound
      rw [stage_setStage_self] at hrunning
      subst hrunning
      exact reached i hsame.symm
    · rw [hothers _ hother] at hfound
      rw [stage_setStage_of_ne hne] at hrunning
      exact h.budget other i left found hrunning hfound

theorem shrink (h : f.Paced) {r : Registry} (sound : r.Sound)
    (newest : r.newest = f.registry.newest)
    (fewer : ∀ i b, r.get? i = some b → f.registry.get? i = some b) :
    { f with registry := r }.Paced where
  sound := sound
  known := fun other i held => newest ▸ h.known other i held
  locked := fun other i b held live => h.locked other i b held (fewer i b live)
  alone := h.alone
  behind := fun i b live before hbefore =>
    h.behind i b (fewer _ b live) before (fewer i before hbefore)
  budget := fun other i left b running live before hbefore =>
    h.budget other i left b running (fewer _ b live) before (fewer i before hbefore)

/-! ## Parts -/

/-- A batch that comes in is behind all others. -/
theorem insert (h : f.Paced) (id : String) (operations : List Operation) :
    (f.insert id operations).Paced := by
  unfold Fleet.insert
  split
  · exact h
  · rename_i b hform
    split
    · exact h
    · rename_i index r hinsert
      obtain ⟨rfl, hnewest, hnew, hothers⟩ := Registry.get?_of_insert? h.sound hinsert
      have hold : ∀ i, i < f.registry.newest → r.get? i = f.registry.get? i :=
        fun i hlt => hothers i (Nat.ne_of_lt hlt)
      refine ⟨(Registry.batches_insert? h.sound hinsert).1, ?_, ?_, h.alone, ?_, ?_⟩
      · intro worker i held
        rw [hnewest]
        exact Nat.lt_succ_of_lt (h.known worker i held)
      · intro worker i found held live
        rw [hold i (h.known worker i held)] at live
        exact h.locked worker i found held live
      · intro i found live
        by_cases hsame : i + 1 = f.registry.newest
        · rw [hsame, hnew] at live
          cases live
          intro before _
          rw [(Batch.unstarted_of_form hform).1, Nat.zero_min]
          exact Nat.zero_le _
        · rw [hothers _ hsame] at live
          have hlt := Registry.lt_newest_of_get? live
          exact (h.behind i found live).congr (hold i (Nat.lt_of_succ_lt hlt))
      · intro worker i left found running live
        have hlt := h.known worker (i + 1) (by rw [running]; rfl)
        rw [hold _ hlt] at live
        exact (h.budget worker i left found running live).congr
          (hold i (Nat.lt_of_succ_lt hlt))

theorem look (h : f.Paced) (worker now index : Nat) :
    (f.look worker now index).Paced := by
  unfold Fleet.look
  split
  · split
    · exact h.setStage_free rfl
    · exact h
  · exact h

/-- Whoever takes a lock is the only one to hold it. -/
theorem lock (h : f.Paced) (worker : Nat) : (f.lock worker).Paced := by
  unfold Fleet.lock
  split
  · rename_i index hfound
    split
    · exact h.setStage_free rfl
    · rename_i b live
      split
      · exact h.setStage_free rfl
      · rename_i hunlocked
        refine h.replace (s := f.scans) live ?_ (Nat.le_refl _) ?_ ?_
        · intro other _ held
          exact hunlocked (h.locked other index b held live)
        · intro i held
          cases held
          exact ⟨rfl, rfl⟩
        · rintro before rfl
          exact h.behind before b live
  · exact h

/-- Giving a lock back changes no count. -/
theorem unlock (h : f.Paced) (held : (f.stage worker).held? = some index)
    (free : stage.held? = none) :
    ((f.unlock index).setStage worker stage).Paced := by
  unfold Fleet.unlock
  cases live : f.registry.get? index with
  | none =>
    rw [Registry.setLocked_of_get?_eq_none live]
    exact h.setStage_free free
  | some b =>
    rw [Registry.setLocked_of_get? live]
    refine h.replace (s := f.scans) live ?_ (Nat.le_refl _) ?_ ?_
    · intro other hne hother
      exact hne (h.alone other worker index hother held)
    · intro i hi
      rw [free] at hi
      cases hi
    · rintro before rfl
      have hleft : stage.left = 0 := by
        cases stage with
        | running i left => cases free
        | idle | found i | holding i | leaving i => rfl
      rw [hleft]
      exact h.behind before b live

/-- An open gate gives the batch the rounds of a stride. -/
theorem gate (h : f.Paced) (sch : Scheduler) (worker : Nat) :
    (gate sch f worker).Paced := by
  unfold Fleet.gate
  split
  · rename_i index hholding
    have held : (f.stage worker).held? = some index := by
      rw [hholding]
      rfl
    split
    · exact h.setStage_free rfl
    · rename_i b live
      split
      · rename_i hopen
        refine h.setStage ?_ ?_
        · intro i hi
          cases hi
          exact held
        · intro i left found hrunning hfound
          cases hrunning
          rw [live] at hfound
          cases hfound
          exact Scheduler.reached_of_isEligible hopen
      · exact h.unlock held rfl
  · exact h

/-- A round uses up one of the rounds that are left. -/
theorem round (h : f.Paced) (sch : Scheduler) (worker : Nat) (receiver : Receiver) (now : Nat) :
    (round sch f worker receiver now).Paced := by
  unfold Fleet.round
  split
  · rename_i index left hrunning
    have held : (f.stage worker).held? = some index := by
      rw [hrunning]
      rfl
    split
    · rename_i hgone
      refine h.setStage ?_ ?_
      · intro i hi
        cases hi
        exact held
      · intro i left found hstage hfound
        cases hstage
        rw [hgone] at hfound
        cases hfound
    · rename_i b live
      have hbounds := (sch.withStride 1).rounds_guardedAdvance receiver b f.scans
      have hlocked := (sch.withStride 1).locked_guardedAdvance receiver b f.scans
      rw [h.locked worker index b held live] at hlocked
      generalize (sch.withStride 1).guardedAdvance receiver b f.scans = a
        at hbounds hlocked
      obtain ⟨hrounds, hstage, hleft⟩ := afterRound_spec sch now index left a
      unfold Fleet.take
      generalize afterRound sch now index left a = result at hrounds hstage hleft ⊢
      obtain ⟨b', stage⟩ := result
      dsimp only at hrounds hstage hleft ⊢
      refine h.replace live ?_ ?_ ?_ ?_
      · intro other hne hother
        exact hne (h.alone other worker index hother held)
      · rw [hrounds]
        exact hbounds.1
      · intro i hi
        obtain ⟨rfl, hkept⟩ := hstage i hi
        exact ⟨rfl, hkept.trans hlocked⟩
      · rintro before rfl
        refine (h.budget worker before (left + 1) b hrunning live).mono ?_
        have hone : (sch.withStride 1).stride = 1 := rfl
        rw [hrounds]
        omega
  · exact h

theorem release (h : f.Paced) (worker : Nat) : (f.release worker).Paced := by
  unfold Fleet.release
  split
  · rename_i index hrunning
    refine h.unlock ?_ ?_
    · rw [hrunning]
      rfl
    · split <;> rfl
  · exact h

theorem remove (h : f.Paced) (worker : Nat) : (f.remove worker).Paced := by
  unfold Fleet.remove
  split
  · rename_i index hleaving
    split
    · exact h.setStage_free rfl
    · rename_i removed r hremove
      obtain ⟨-, hsound, hnewest, hgone, hothers⟩ :=
        Registry.get?_of_remove? h.sound hremove
      refine (h.shrink hsound hnewest ?_).setStage_free rfl
      intro i b live
      by_cases hsame : i = index
      · rw [hsame, hgone] at live
        cases live
      · rwa [hothers i hsame] at live
  · exact h

theorem answer (h : f.Paced) (sch : Scheduler) (call : FleetCall) :
    (answer sch f call).Paced := by
  cases call with
  | insert id operations => exact h.insert id operations
  | move scans => exact ⟨h.sound, h.known, h.locked, h.alone, h.behind, h.budget⟩
  | look worker now index => exact h.look worker now index
  | lock worker => exact h.lock worker
  | gate worker => exact h.gate sch worker
  | round worker receiver now => exact h.round sch worker receiver now
  | release worker => exact h.release worker
  | remove worker => exact h.remove worker

theorem answerAll (h : f.Paced) (sch : Scheduler) (calls : List FleetCall) :
    (f.answerAll sch calls).Paced := by
  induction calls generalizing f with
  | nil => exact h
  | cons call calls ih => exact ih (h.answer sch call)

end Paced

/-- Whatever parts workers do in whatever order, a live batch never has more rounds
than the live batch before it, as long as that one's rounds can be counted. -/
theorem rounds_le_of_live (sch : Scheduler) (capacity : Nat) (scans : Scans)
    (calls : List FleetCall) (index : Nat) {before b : Batch}
    (hbefore : ((ofCapacity capacity scans).answerAll sch calls).registry.get? index =
      some before)
    (hlive : ((ofCapacity capacity scans).answerAll sch calls).registry.get?
      (index + 1) = some b) (counted : before.rounds < maxRounds) :
    b.rounds ≤ before.rounds := by
  have hpaced := (paced_ofCapacity capacity scans).answerAll sch calls
  have hreached := hpaced.behind index b hlive before hbefore
  omega

/-- Two scans of a row each. -/
def rowEach : Scans where
  graph := default
  cursors := Array.replicate 2 { source := .script [.row (.nat 1)] }

/-- Two batches come in, and two workers take turns at them: the second finds
its gate open only when the first has run a round. -/
def inTurns : List FleetCall := [
  .insert "first" [⟨0, "rows", { kind := .allNodes, cursor := 0, links := [] }⟩],
  .insert "second" [⟨1, "rows", { kind := .allNodes, cursor := 1, links := [] }⟩],
  .look 7 0 0, .look 8 0 1, .lock 8, .lock 7, .gate 7, .round 7 none 0, .gate 8,
    .round 8 none 0]

/-- Both batches are then live with one round each, and the second has not
overtaken the first. -/
theorem rounds_le_of_live_inTurns :
    let f := (ofCapacity 2 rowEach).answerAll ⟨1, 0, 0⟩ inTurns
    ∃ before b, f.registry.get? 0 = some before ∧ f.registry.get? 1 = some b ∧
      before.rounds = 1 ∧ b.rounds = 1 ∧ b.rounds ≤ before.rounds := by
  intro f
  have hfirst : (f.registry.get? 0).map (·.rounds) = some 1 := by decide
  have hsecond : (f.registry.get? 1).map (·.rounds) = some 1 := by decide
  obtain ⟨before, hbefore, hcount⟩ := Option.map_eq_some_iff.mp hfirst
  obtain ⟨b, hlive, hcount'⟩ := Option.map_eq_some_iff.mp hsecond
  refine ⟨before, b, hbefore, hlive, hcount, hcount', ?_⟩
  exact rounds_le_of_live ⟨1, 0, 0⟩ 2 rowEach inTurns 0 hbefore hlive
    (by rw [hcount]; decide)

end Fleet

end Lockstep
