import Lockstep.Proofs.Batch.Formation
import Lockstep.Proofs.Scheduler.Crew
set_option autoImplicit false

/-!
# What the readings of a call stand for

A call learns how many rounds it ran from two readings of the count of its
batch.  It makes the second after it has released the lock, so the rounds that
others complete in between are in it too; and a call that crashes makes none.  A
batch that a call has left without members is removed by this call or another
one, once.

The invariant says of each call how the readings that it has made stand to the
count of its batch.  The parts of the others keep it because they run rounds
only where they hold the lock, and because a count never falls and a batch
without members gets none.
-/

namespace Lockstep

/-- Whether the call is to remove the batch of an index that it has left without
members, or crashed on it. -/
def Attempt.Owes (index : Nat) : Attempt → Prop
  | .running i _ _ _ => i = index
  | .released i _ _ _ drained => i = index ∧ drained = true
  | .leaving report _ _ => report.index = index ∧ report.drained = true
  | .crashed i _ => i = index
  | _ => False

namespace Crew

/-- How many rounds the batch of an index has completed, live or removed. -/
def roundsOf (c : Crew) (index : Nat) : Nat := ((c.batch? index).map (·.rounds)).getD 0

/-- What holds of a call. -/
def Fits (c : Crew) (call : Nat) : Attempt → Prop
  | .holding index => c.holder index = some call
  | .running index before _ work =>
    c.holder index = some call ∧ ∃ b, c.batch? index = some b ∧
      before + work.rounds = b.rounds
  | .released index before after work drained =>
    before + work.rounds = after ∧
      ∃ b, c.batch? index = some b ∧ after ≤ b.rounds ∧
      (drained = true → b.members = [])
  | .leaving report own grown =>
    report.rounds = own + grown ∧
      ∃ b, c.batch? report.index = some b ∧ (report.drained = true → b.members = [])
  | .returned report own grown =>
    report.rounds = own + grown ∧
      (report.drained = true → (c.removed report.index).isSome = true)
  | _ => True

/-- Every call fits the batch that it is at, every removed batch is without
members, and a live one without members is due to be removed. -/
structure Kept (c : Crew) : Prop where
  sound : c.registry.Sound
  gone : ∀ index b, c.removed index = some b →
    index < c.registry.newest ∧ c.registry.get? index = none ∧ b.members = []
  fits : ∀ call a, c.calls[call]? = some a → c.Fits call a
  owed : ∀ index b, c.registry.get? index = some b → b.members = [] →
    ∃ (call : Nat) (a : Attempt), c.calls[call]? = some a ∧ a.Owes index

/-- What a part of a call leaves to the others: the locks that they hold
and the counts behind these, counts that never fall, and batches without
members that stay so. -/
structure Onward (call : Nat) (c c' : Crew) : Prop where
  held : ∀ index other, other ≠ call → c.holder index = some other →
    c'.holder index = some other ∧ c'.roundsOf index = c.roundsOf index
  batches : ∀ index b, c.batch? index = some b → ∃ b', c'.batch? index = some b' ∧
    b.rounds ≤ b'.rounds ∧
    (b.members = [] → b'.members = [])
  removed : ∀ index, (c.removed index).isSome = true → (c'.removed index).isSome = true

section

variable {c c' : Crew} {call index other : Nat} {a : Attempt} {b b' : Batch}

theorem roundsOf_of_batch? (h : c.batch? index = some b) :
    c.roundsOf index = b.rounds := by
  unfold roundsOf
  rw [h]
  rfl

theorem roundsOf_congr (h : c'.batch? index = c.batch? index) :
    c'.roundsOf index = c.roundsOf index := by
  unfold roundsOf
  rw [h]

theorem Fits.onward (h : c.Fits other a) (onward : Onward call c c')
    (hne : other ≠ call) : c'.Fits other a := by
  cases a with
  | found | refused | crashed => trivial
  | holding index => exact (onward.held index other hne h).1
  | running index before left work =>
    obtain ⟨hheld, b, hb, hcount⟩ := h
    obtain ⟨hheld', hsame⟩ := onward.held index other hne hheld
    obtain ⟨b', hb', -, -⟩ := onward.batches index b hb
    rw [roundsOf_of_batch? hb, roundsOf_of_batch? hb'] at hsame
    exact ⟨hheld', b', hb', hcount.trans hsame.symm⟩
  | released index before after work drained =>
    obtain ⟨hcount, b, hb, hgrown, hempty⟩ := h
    obtain ⟨b', hb', hmore, hstays⟩ := onward.batches index b hb
    exact ⟨hcount, b', hb', Nat.le_trans hgrown hmore,
      fun hdrained => hstays (hempty hdrained)⟩
  | leaving report own grown =>
    obtain ⟨hcount, b, hb, hempty⟩ := h
    obtain ⟨b', hb', -, hstays⟩ := onward.batches _ b hb
    exact ⟨hcount, b', hb', fun hdrained => hstays (hempty hdrained)⟩
  | returned report own grown =>
    exact ⟨h.1, fun hdrained => onward.removed _ (h.2 hdrained)⟩

/-! ## Batches -/

theorem registry_put_of_gone (gone : c.registry.get? index = none) (b : Batch) :
    (c.put index b).registry = c.registry := by
  unfold put Registry.replace
  rw [gone, if_neg (by simp)]

theorem get?_put_of_ne (hr : c.registry.Sound) (hne : other ≠ index) (b : Batch) :
    (c.put index b).registry.get? other = c.registry.get? other := by
  cases live : c.registry.get? index with
  | some found => exact Registry.get?_replace_of_ne hr live hne b
  | none => rw [registry_put_of_gone live]

theorem removed_put_self (c : Crew) (index : Nat) (b : Batch) :
    (c.put index b).removed index = (c.removed index).map fun _ => b :=
  Function.update_self ..

theorem removed_put_of_ne (hne : other ≠ index) (c : Crew) (b : Batch) :
    (c.put index b).removed other = c.removed other := Function.update_of_ne hne ..

theorem batch?_put_of_ne (hr : c.registry.Sound) (hne : other ≠ index) (b : Batch) :
    (c.put index b).batch? other = c.batch? other := by
  unfold batch?
  rw [get?_put_of_ne hr hne, removed_put_of_ne hne]

theorem batch?_put_self (hr : c.registry.Sound) (h : c.batch? index = some b)
    (b' : Batch) :
    (c.put index b').batch? index = some b' := by
  cases live : c.registry.get? index with
  | some found => exact batch?_of_get? (Registry.get?_replace_self hr live b')
  | none =>
    unfold batch? at h ⊢
    rw [live, Option.none_or] at h
    rw [registry_put_of_gone live, live, removed_put_self, h, Option.none_or,
      Option.map_some]

theorem isSome_removed_put (c : Crew) (index : Nat) (b : Batch) (i : Nat) :
    ((c.put index b).removed i).isSome = (c.removed i).isSome := by
  by_cases hsame : i = index
  · rw [hsame, removed_put_self, Option.isSome_map]
  · rw [removed_put_of_ne hsame]

theorem batch?_of_remove? (hr : c.registry.Sound) {registry : Registry}
    (removed : c.registry.remove? index = some (b, registry)) (metrics : Metrics) (i : Nat) :
    ({ c with
      registry := registry
      removed := Function.update c.removed index (some b)
      metrics := metrics } : Crew).batch? i = c.batch? i := by
  obtain ⟨live, -, -, hgone, hothers⟩ := Registry.get?_of_remove? hr removed
  unfold batch?
  dsimp only
  by_cases hsame : i = index
  · subst hsame
    rw [live, hgone, Function.update_self, Option.none_or, Option.some_or]
  · rw [hothers i hsame, Function.update_of_ne hsame]

end

/-! ## What a part does -/

/-- What a part can do. -/
inductive Step (sch : Scheduler) (c : Crew) : Crew → Prop
  | idle : Step sch c c
  | insert {index : Nat} {b : Batch} {registry : Registry} (fresh : b.rounds = 0)
      (peopled : b.members ≠ [])
      (inserted : c.registry.insert? b = some (index, registry)) :
        Step sch c { c with registry := registry }
  | move (scans : Scans) : Step sch c { c with scans := scans }
  | look {a : Attempt} (outside : a = .refused ∨ ∃ index, a = .found index) :
      Step sch c (c.makeCall a)
  /-- the lock was taken -/
  | refuse {call index : Nat} (found : c.calls[call]? = some (.found index)) :
      Step sch c (c.setCall call .refused)
  | lock {call index : Nat} (found : c.calls[call]? = some (.found index))
      (free : c.holder index = none) :
      Step sch c
        ({ c with holder := Function.update c.holder index (some call) }.setCall call
          (.holding index))
  | enter {call index : Nat} {b : Batch}
      (holding : c.calls[call]? = some (.holding index))
      (found : c.batch? index = some b) :
        Step sch c (c.setCall call (.running index b.rounds sch.stride {}))
  /-- the gate was closed -/
  | leave {call index : Nat} (holding : c.calls[call]? = some (.holding index)) :
      Step sch c ((c.unlock index).setCall call .refused)
  | round {call index before left left' : Nat} {work work' : Work} {b b' : Batch}
      (scans : Scans)
      (running : c.calls[call]? = some (.running index before left work))
      (found : c.batch? index = some b)
      (more : b.rounds ≤ b'.rounds) (emptied : b.members = [] → b'.members = [])
      (counted : work'.rounds = work.rounds + (b'.rounds - b.rounds)) :
      Step sch c
        ({ c.put index b' with scans := scans }.setCall call
          (.running index before left' work'))
  | crash {call index before left own : Nat} {work : Work} {b b' : Batch}
      (scans : Scans)
      (running : c.calls[call]? = some (.running index before left work))
      (found : c.batch? index = some b)
      (more : b.rounds ≤ b'.rounds) (emptied : b.members = [] → b'.members = [])
      (counted : own = work.rounds + (b'.rounds - b.rounds)) :
      Step sch c
        ({ (c.put index b').unlock index with scans := scans }.setCall call
          (.crashed index own))
  | release {call index before : Nat} {work : Work} {b : Batch}
      (running : c.calls[call]? = some (.running index before 0 work))
      (found : c.batch? index = some b) :
      Step sch c
        ((c.unlock index).setCall call
          (.released index before b.rounds work b.members.isEmpty))
  | read {call index before after : Nat} {work : Work} {drained : Bool} {b : Batch}
      {report : Report}
      (released : c.calls[call]? = some (.released index before after work drained))
      (found : c.batch? index = some b)
        (told : report.index = index ∧ report.rounds = b.rounds - before ∧
        report.drained = drained) :
      Step sch c ({ c with metrics := addReport c.metrics report }.setCall call
        (.leaving report work.rounds (b.rounds - after)))
  /-- there was nothing to remove -/
  | pass {call own grown : Nat} {report : Report}
      (leaving : c.calls[call]? = some (.leaving report own grown))
      (gone : report.drained = true → c.registry.get? report.index = none) :
      Step sch c (c.setCall call (.returned report own grown))
  | remove {call own grown : Nat} {report : Report} {b : Batch} {registry : Registry}
      (leaving : c.calls[call]? = some (.leaving report own grown))
      (drained : report.drained = true)
      (removed : c.registry.remove? report.index = some (b, registry)) :
      Step sch c ({ c with
        registry := registry
        removed := Function.update c.removed report.index (some b)
        metrics := c.metrics.countDrained }.setCall call (.returned report own grown))

/-- What a round has left is put back, and the call goes on or has crashed. -/
theorem step_take {sch : Scheduler} {c : Crew} {call index before left : Nat}
    {work : Work} {b : Batch} {a : Advance} (now : Nat)
    (running : c.calls[call]? = some (.running index before (left + 1) work))
    (found : c.batch? index = some b) (more : b.rounds ≤ a.batch.rounds)
    (emptied : b.members = [] → a.batch.members = []) :
    Step sch c (take sch c call now index before left (work.after b a) a) := by
  obtain ⟨hrounds, hmembers⟩ := waiting_frame sch now a
  have hmore : b.rounds ≤ (Fleet.waiting sch now a).rounds := hrounds ▸ more
  have hemptied : b.members = [] → (Fleet.waiting sch now a).members = [] :=
    fun hempty => hmembers.trans (emptied hempty)
  have hcounted : (work.after b a).rounds =
      work.rounds + ((Fleet.waiting sch now a).rounds - b.rounds) := by
    rw [hrounds]
    rfl
  unfold take
  cases a.ending with
  | ran | aborted f | failed members f =>
    exact .round a.scans running found hmore hemptied hcounted
  | crashed crash => exact .crash a.scans running found hmore hemptied hcounted

/-- A part does one of these. -/
theorem step_answer (sch : Scheduler) (c : Crew) (part : CrewPart) :
    Step sch c (c.answer sch part) := by
  cases part with
  | insert id operations =>
    show Step sch c (c.insert id operations)
    unfold insert
    split
    · exact .idle
    · rename_i b hform
      split
      · exact .idle
      · rename_i hinsert
        exact .insert (Batch.unstarted_of_form hform).1
          (Batch.members_ne_nil_of_form hform) hinsert
  | move scans => exact .move scans
  | look now index =>
    refine .look ?_
    split
    · exact .inr ⟨index, rfl⟩
    · exact .inl rfl
  | lock call =>
    show Step sch c (c.lock call)
    unfold lock
    split
    · rename_i index hfound
      split
      · exact .refuse hfound
      · rename_i hfree
        exact .lock hfound hfree
    · exact .idle
  | gate call =>
    show Step sch c (gate sch c call)
    unfold gate
    split
    · rename_i index hholding
      split
      · exact .idle
      · rename_i b hfound
        split
        · exact .enter hholding hfound
        · exact .leave hholding
    · exact .idle
  | round call receiver now =>
    show Step sch c (round sch c call receiver now)
    unfold round
    split
    · rename_i hrunning
      split
      · exact .idle
      · rename_i b hfound
        exact step_take now hrunning hfound
          ((sch.withStride 1).rounds_guardedAdvance receiver b c.scans).1
          fun hempty => by rw [Scheduler.guardedAdvance_of_isEmpty hempty, hempty]
    · exact .idle
  | release call =>
    show Step sch c (c.release call)
    unfold release
    split
    · rename_i hrunning
      split
      · exact .idle
      · rename_i hfound
        exact .release hrunning hfound
    · exact .idle
  | read call =>
    show Step sch c (c.read call)
    unfold read
    split
    · rename_i hreleased
      split
      · exact .idle
      · rename_i hfound
        exact .read hreleased hfound ⟨rfl, rfl, rfl⟩
    · exact .idle
  | remove call =>
    show Step sch c (c.remove call)
    unfold remove
    split
    · rename_i report own grown hleaving
      cases hdrained : report.drained with
      | false =>
        exact .pass hleaving fun hdrained' =>
          absurd (hdrained.symm.trans hdrained') Bool.false_ne_true
      | true =>
        rw [if_pos rfl]
        unfold drop
        split
        · rename_i hnone
          exact .pass hleaving fun _ => Option.map_eq_none_iff.mp hnone
        · rename_i hremoved
          exact .remove hleaving hdrained hremoved
    · exact .idle

/-! ## Every part keeps the invariant -/

theorem kept_ofCapacity (capacity : Nat) (scans : Scans) :
    (ofCapacity capacity scans).Kept where
  sound := Registry.sound_ofCapacity capacity
  gone := fun _ _ removed => by cases removed
  fits := fun _ _ made => by cases made
  owed := fun _ _ live => absurd (Registry.lt_newest_of_get? live) (Nat.not_lt_zero _)

namespace Kept

section

variable {c c' : Crew} {call index : Nat} {a a' : Attempt} {b : Batch}

theorem lt_newest (h : c.Kept) (found : c.batch? index = some b) :
    index < c.registry.newest := by
  unfold batch? at found
  rcases Option.or_eq_some_iff.mp found with live | ⟨-, removed⟩
  · exact Registry.lt_newest_of_get? live
  · exact (h.gone index b removed).1

/-- A call goes on, and changes no more for the others than a part may. -/
theorem setCall (h : c.Kept) (made : c.calls[call]? = some a)
    (calls : c'.calls = c.calls.set call a') (sound : c'.registry.Sound)
    (gone : ∀ i b, c'.removed i = some b → i < c'.registry.newest ∧
      c'.registry.get? i = none ∧ b.members = []) (onward : Onward call c c')
    (fits : c'.Fits call a')
    (owed : ∀ i b, c'.registry.get? i = some b → b.members = [] →
      a'.Owes i ∨ ¬ a.Owes i ∧ c.registry.get? i = some b) : c'.Kept := by
  have hlt := (List.getElem?_eq_some_iff.mp made).1
  have hself : c'.calls[call]? = some a' := by rw [calls, List.getElem?_set_self hlt]
  have hothers : ∀ k, k ≠ call → c'.calls[k]? = c.calls[k]? := fun k hne => by
    rw [calls, List.getElem?_set_ne (Ne.symm hne)]
  refine ⟨sound, gone, ?_, ?_⟩
  -- the call fits by assumption, and to all others this part is one of somebody else
  · intro k found hfound
    by_cases hsame : k = call
    · rw [hsame, hself] at hfound
      cases hfound
      exact hsame ▸ fits
    · rw [hothers k hsame] at hfound
      exact (h.fits k found hfound).onward onward hsame
  · intro i b live hempty
    rcases owed i b live hempty with howes | ⟨hfree, hbefore⟩
    · exact ⟨call, a', hself, howes⟩
    · obtain ⟨k, found, hfound, howes⟩ := h.owed i b hbefore hempty
      refine ⟨k, found, ?_, howes⟩
      rw [hothers k ?_]
      · exact hfound
      · rintro rfl
        rw [made] at hfound
        cases hfound
        exact hfree howes

/-- A call goes on and leaves all batches as they are. -/
theorem turn (h : c.Kept) (made : c.calls[call]? = some a) {holder : Nat → Option Nat}
    {metrics : Metrics}
    (others : ∀ i k, k ≠ call → c.holder i = some k → holder i = some k)
    (fits : ({ c with holder := holder, metrics := metrics }).Fits call a')
    (owed : ∀ i b, c.registry.get? i = some b → b.members = [] → a.Owes i → a'.Owes i) :
    ({ c with holder := holder, metrics := metrics }.setCall call a').Kept := by
  refine h.setCall made rfl h.sound h.gone ?_ ?_ ?_
  · refine ⟨fun i k hne held => ⟨others i k hne held, rfl⟩, fun i b found => ?_,
      fun i removed => removed⟩
    exact ⟨b, found, Nat.le_refl _, fun hempty => hempty⟩
  · cases a' <;> exact fits
  · intro i b live hempty
    by_cases howes : a.Owes i
    · exact .inl (owed i b live hempty howes)
    · exact .inr ⟨howes, live⟩

theorem roundsOf_insert (h : c.Kept) {registry : Registry} (fresh : b.rounds = 0)
    (inserted : c.registry.insert? b = some (index, registry)) (i : Nat) :
    ({ c with registry := registry } : Crew).roundsOf i = c.roundsOf i := by
  obtain ⟨rfl, -, hnew, hothers⟩ := Registry.get?_of_insert? h.sound inserted
  by_cases hsame : i = c.registry.newest
  · subst hsame
    have hnone : c.batch? c.registry.newest = none := by
      rw [Option.eq_none_iff_forall_ne_some]
      intro b found
      exact Nat.lt_irrefl _ (h.lt_newest found)
    rw [roundsOf_of_batch? (batch?_of_get? hnew), fresh, roundsOf, hnone]
    rfl
  · unfold roundsOf batch?
    rw [hothers i hsame]

/-- A batch comes in behind all others. -/
theorem insert (h : c.Kept) {registry : Registry} (fresh : b.rounds = 0)
    (peopled : b.members ≠ [])
    (inserted : c.registry.insert? b = some (index, registry)) :
    ({ c with registry := registry }).Kept := by
  obtain ⟨rfl, hnewest, hnew, hothers⟩ := Registry.get?_of_insert? h.sound inserted
  have hbefore : ∀ i, i < c.registry.newest → registry.get? i = c.registry.get? i :=
    fun i hlt => hothers i (Nat.ne_of_lt hlt)
  have hbatch : ∀ i b, c.batch? i = some b →
      ({ c with registry := registry } : Crew).batch? i = some b := by
    intro i b found
    unfold batch? at found ⊢
    rw [hbefore i (h.lt_newest found)]
    exact found
  refine ⟨(Registry.batches_insert? h.sound inserted).1, ?_, ?_, ?_⟩
  · intro i b removed
    obtain ⟨hlt, hgone, hempty⟩ := h.gone i b removed
    exact ⟨hnewest ▸ Nat.lt_succ_of_lt hlt, (hbefore i hlt).trans hgone, hempty⟩
  · intro k found hfound
    have hlt := (List.getElem?_eq_some_iff.mp hfound).1
    -- nobody has made the call of the next number, so this part is one of
    -- somebody else to every call
    have honward : Onward c.calls.length c { c with registry := registry } :=
      ⟨fun i other _ held => ⟨held, h.roundsOf_insert fresh inserted i⟩,
        fun i b found => ⟨b, hbatch i b found, Nat.le_refl _, fun hempty => hempty⟩,
          fun _ removed => removed⟩
    exact (h.fits k found hfound).onward honward (Nat.ne_of_lt hlt)
  · intro i found live hempty
    by_cases hsame : i = c.registry.newest
    · subst hsame
      rw [hnew] at live
      cases live
      exact absurd hempty peopled
    · rw [hothers i hsame] at live
      exact h.owed i found live hempty

/-- Whoever holds the lock of a batch may advance it. -/
theorem put (h : c.Kept) {b b' : Batch} {before left : Nat} {work : Work}
    {holder : Nat → Option Nat}
    (running : c.calls[call]? = some (.running index before left work))
    (found : c.batch? index = some b) (more : b.rounds ≤ b'.rounds)
    (emptied : b.members = [] → b'.members = []) (scans : Scans)
    (others : ∀ i k, k ≠ call → c.holder i = some k → holder i = some k)
    (fits : ({ c.put index b' with scans := scans, holder := holder }).Fits call a')
    (owes : a'.Owes index) :
    ({ c.put index b' with scans := scans, holder := holder }.setCall call a').Kept := by
  have hmine : c.holder index = some call := (h.fits call _ running).1
  have hself := batch?_put_self h.sound found b'
  have helse : ∀ i, i ≠ index → (c.put index b').batch? i = c.batch? i :=
    fun i hne => batch?_put_of_ne h.sound hne b'
  refine h.setCall running rfl (h.sound.replace index b') ?_ ?_ ?_ ?_
  · intro i removed hremoved
    change (c.put index b').removed i = some removed at hremoved
    show i < (c.registry.replace index b').newest ∧ (c.put index b').registry.get? i =
      none ∧ removed.members = []
    rw [Registry.newest_replace]
    by_cases hsame : i = index
    · subst hsame
      rw [removed_put_self] at hremoved
      obtain ⟨old, hold, rfl⟩ := Option.map_eq_some_iff.mp hremoved
      obtain ⟨hlt, hgone, hempty⟩ := h.gone i old hold
      rw [batch?, hgone, Option.none_or, hold] at found
      cases found
      rw [registry_put_of_gone hgone]
      exact ⟨hlt, hgone, emptied hempty⟩
    · rw [removed_put_of_ne hsame] at hremoved
      obtain ⟨hlt, hgone, hempty⟩ := h.gone i removed hremoved
      exact ⟨hlt, (get?_put_of_ne h.sound hsame b').trans hgone, hempty⟩
  · refine ⟨fun i other hne held => ⟨others i other hne held, ?_⟩, fun i old hold => ?_,
      fun i removed => ?_⟩
    -- the lock of this batch is held by the call itself
    · have hindex : i ≠ index := by
        rintro rfl
        rw [hmine] at held
        cases held
        exact hne rfl
      exact roundsOf_congr (helse i hindex)
    · by_cases hsame : i = index
      · subst hsame
        rw [found] at hold
        cases hold
        exact ⟨b', hself, more, emptied⟩
      · exact ⟨old, (helse i hsame).trans hold, Nat.le_refl _, fun hempty => hempty⟩
    · exact (isSome_removed_put c index b' i).trans removed
  · cases a' <;> exact fits
  · intro i live hlive hempty
    by_cases hsame : i = index
    · exact .inl (hsame ▸ owes)
    · exact .inr ⟨fun howes => hsame howes.symm,
        (get?_put_of_ne h.sound hsame b').symm.trans hlive⟩

/-- A batch that was left without members is removed. -/
theorem remove (h : c.Kept) {report : Report} {own grown : Nat} {registry : Registry}
    (leaving : c.calls[call]? = some (.leaving report own grown))
    (drained : report.drained = true)
    (removed : c.registry.remove? report.index = some (b, registry))
    (metrics : Metrics) :
    ({ c with
      registry := registry
      removed := Function.update c.removed report.index (some b)
      metrics := metrics }.setCall call (.returned report own grown)).Kept := by
  obtain ⟨live, hsound, hnewest, hnone, hothers⟩ :=
    Registry.get?_of_remove? h.sound removed
  obtain ⟨htold, found, hfound, hempty⟩ := h.fits call _ leaving
  have hbatch := batch?_of_remove? h.sound removed metrics
  rw [batch?_of_get? live] at hfound
  cases hfound
  refine h.setCall leaving rfl hsound ?_ ?_ ?_ ?_
  · intro i gone hgone
    show i < registry.newest ∧ registry.get? i = none ∧ gone.members = []
    change Function.update c.removed report.index (some b) i = some gone at hgone
    rw [hnewest]
    by_cases hsame : i = report.index
    · rw [hsame, Function.update_self] at hgone
      cases hgone
      exact ⟨hsame ▸ Registry.lt_newest_of_get? live, hsame ▸ hnone, hempty drained⟩
    · rw [Function.update_of_ne hsame] at hgone
      obtain ⟨hlt, hnone', hempty'⟩ := h.gone i gone hgone
      exact ⟨hlt, (hothers i hsame).trans hnone', hempty'⟩
  · refine ⟨fun i other _ held => ⟨held, ?_⟩, fun i old hold => ?_, fun i hgone => ?_⟩
    · exact roundsOf_congr (hbatch i)
    · exact ⟨old, (hbatch i).trans hold, Nat.le_refl _, fun hempty => hempty⟩
    · show (Function.update c.removed report.index (some b) i).isSome = true
      by_cases hsame : i = report.index
      · rw [hsame, Function.update_self]
        rfl
      · rw [Function.update_of_ne hsame]
        exact hgone
  · refine ⟨htold, fun _ => ?_⟩
    show (Function.update c.removed report.index (some b) report.index).isSome = true
    rw [Function.update_self]
    rfl
  · intro i found hfound hempty'
    refine .inr ⟨?_, ?_⟩
    · rintro ⟨rfl, -⟩
      cases hnone.symm.trans hfound
    · have hne : i ≠ report.index := by
        rintro rfl
        cases hnone.symm.trans hfound
      exact (hothers i hne).symm.trans hfound

theorem held_unlock (mine : c.holder index = some call) {i k : Nat} (hne : k ≠ call)
    (held : c.holder i = some k) : Function.update c.holder index none i = some k := by
  rw [Function.update_of_ne]
  · exact held
  · rintro rfl
    rw [mine] at held
    cases held
    exact hne rfl

/-- A call that has just been made is outside. -/
theorem makeCall (h : c.Kept) (outside : a = .refused ∨ ∃ index, a = .found index) :
    (c.makeCall a).Kept := by
  refine ⟨h.sound, h.gone, ?_, ?_⟩
  · intro k found hfound
    change (c.calls ++ [a])[k]? = some found at hfound
    by_cases hlt : k < c.calls.length
    · rw [List.getElem?_append_left hlt] at hfound
      have hfits := h.fits k found hfound
      cases found <;> exact hfits
    · rw [List.getElem?_append_right (Nat.le_of_not_lt hlt)] at hfound
      cases List.mem_singleton.mp (List.mem_of_getElem? hfound)
      rcases outside with rfl | ⟨index, rfl⟩ <;> trivial
  · intro i found live hempty
    obtain ⟨k, other, hother, howes⟩ := h.owed i found live hempty
    exact ⟨k, other,
      (List.getElem?_append_left (List.getElem?_eq_some_iff.mp hother).1).trans hother, howes⟩

theorem step {sch : Scheduler} (h : c.Kept) (s : Step sch c c') : c'.Kept := by
  cases s with
  | idle => exact h
  | insert fresh peopled inserted => exact h.insert fresh peopled inserted
  | move scans => exact ⟨h.sound, h.gone, h.fits, h.owed⟩
  | look outside => exact h.makeCall outside
  | refuse found =>
    exact h.turn found (fun _ _ _ held => held) trivial fun _ _ _ _ howes => howes
  | lock found free =>
    refine h.turn found ?_ (Function.update_self ..) fun _ _ _ _ howes => howes.elim
    intro i k _ held
    rw [Function.update_of_ne]
    · exact held
    · rintro rfl
      rw [free] at held
      cases held
  | enter holding found =>
    refine h.turn holding (fun _ _ _ held => held)
      ⟨h.fits _ _ holding, _, found, rfl⟩ ?_
    exact fun _ _ _ _ howes => howes.elim
  | leave holding =>
    exact h.turn holding (fun _ _ hne => held_unlock (h.fits _ _ holding) hne) trivial
      fun _ _ _ _ howes => howes.elim
  | round scans running found more emptied counted =>
    refine h.put running found more emptied scans (fun _ _ _ held => held) ?_ rfl
    obtain ⟨hmine, b, hb, hcount⟩ := h.fits _ _ running
    rw [found] at hb
    cases hb
    exact ⟨hmine, _, batch?_put_self h.sound found _, by omega⟩
  | crash scans running found more emptied counted =>
    exact h.put running found more emptied scans
      (fun _ _ hne => held_unlock (h.fits _ _ running).1 hne)
      trivial rfl
  | release running found =>
    obtain ⟨hmine, b, hb, hcount⟩ := h.fits _ _ running
    rw [found] at hb
    cases hb
    refine h.turn running (fun _ _ hne => held_unlock hmine hne) ?_ ?_
    · exact ⟨hcount, _, found, Nat.le_refl _, List.isEmpty_iff.mp⟩
    · rintro i b live hempty rfl
      rw [batch?_of_get? live] at found
      cases found
      exact ⟨rfl, List.isEmpty_iff.mpr hempty⟩
  | read released found told =>
    obtain ⟨rfl, hrounds, rfl⟩ := told
    obtain ⟨hcount, b, hb, hgrown, hempty⟩ := h.fits _ _ released
    rw [found] at hb
    cases hb
    refine h.turn released (fun _ _ _ held => held) ?_ fun _ _ _ _ howes => howes
    exact ⟨by omega, _, found, hempty⟩
  | pass leaving gone =>
    obtain ⟨htold, b, hb, hempty⟩ := h.fits _ _ leaving
    refine h.turn leaving (fun _ _ _ held => held) ⟨htold, fun hdrained => ?_⟩ ?_
    · rw [batch?, gone hdrained, Option.none_or] at hb
      exact Option.isSome_iff_exists.mpr ⟨b, hb⟩
    · rintro i live hlive hempty' ⟨rfl, hdrained⟩
      cases (gone hdrained).symm.trans hlive
  | remove leaving drained removed => exact h.remove leaving drained removed _

end

end Kept

end Crew

end Lockstep
