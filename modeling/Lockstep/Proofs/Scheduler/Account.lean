import Lockstep.Proofs.Scheduler.Tally
import Mathlib.Algebra.BigOperators.Group.List.Basic
set_option autoImplicit false

/-!
# Rounds that are told twice, or by nobody

The counters of a crew are sums over its calls and its batches.  Every part
changes at most one term of each, so what the calls have run always comes to what
the batches have completed, and the metrics to what the calls have told.  The two
sums differ by the rounds that came in between a release and the reading behind
it, which are told twice, and by those of calls that crashed, which nobody tells.
-/

namespace Lockstep

/-! ## Sums -/

theorem sum_map_set {α : Type} (f : α → Nat) {l : List α} {i : Nat} {x : α}
    (h : l[i]? = some x) (y : α) :
    ((l.set i y).map f).sum + f x = (l.map f).sum + f y := by
  induction l generalizing i with
  | nil => cases h
  | cons z l ih =>
    cases i with
    | zero =>
      cases h
      simp only [List.set_cons_zero, List.map_cons, List.sum_cons]
      omega
    | succ i =>
      have hrest := ih h
      simp only [List.set_cons_succ, List.map_cons, List.sum_cons]
      omega

/-- Functions that differ at one number have sums that differ by that. -/
theorem sum_range_of_ne {f g : Nat → Nat} {index count : Nat} (hlt : index < count)
    (same : ∀ i, i ≠ index → g i = f i) :
    ((List.range count).map g).sum + f index = ((List.range count).map f).sum + g index := by
  induction count with
  | zero => exact absurd hlt (Nat.not_lt_zero index)
  | succ count ih =>
    simp only [List.range_succ, List.map_append, List.sum_append, List.map_singleton,
      List.sum_singleton]
    rcases Nat.lt_succ_iff_lt_or_eq.mp hlt with hbefore | rfl
    · have hcount := same count (Nat.ne_of_gt hbefore)
      have hbelow := ih hbefore
      omega
    · have hbelow : (List.range index).map g = (List.range index).map f :=
        List.map_congr_left fun i hi => same i (Nat.ne_of_lt (List.mem_range.mp hi))
      rw [hbelow]
      omega

namespace Crew

/-- How many rounds all batches have completed. -/
def total (c : Crew) : Nat := ((List.range c.registry.newest).map c.roundsOf).sum

/-- The sum of something over all calls. -/
def sum (c : Crew) (f : Attempt → Nat) : Nat := (c.calls.map f).sum

/-- The indexes whose batches were removed. -/
def drained (c : Crew) : List Nat :=
  (List.range c.registry.newest).filter fun index => (c.removed index).isSome

/-! ## What the calls have run and told -/

section

variable {sch : Scheduler} {c c' : Crew} {call index : Nat} {a a' : Attempt}
  {b b' : Batch}

theorem sum_setCall (made : c.calls[call]? = some a) (a' : Attempt)
    (f : Attempt → Nat) :
    (c.setCall call a').sum f + f a = c.sum f + f a' := sum_map_set f made a'

theorem sum_setCall_of_eq (made : c.calls[call]? = some a) {f : Attempt → Nat}
    (same : f a' = f a) :
    (c.setCall call a').sum f = c.sum f := by
  have hsum := sum_setCall made a' f
  omega

theorem sum_makeCall (c : Crew) (a : Attempt) (f : Attempt → Nat) :
    (c.makeCall a).sum f = c.sum f + f a := by
  unfold sum makeCall
  rw [List.map_append, List.sum_append, List.map_singleton, List.sum_singleton]

theorem total_put (h : c.Kept) (found : c.batch? index = some b) (b' : Batch) :
    (c.put index b').total + b.rounds = c.total + b'.rounds := by
  have hsum := sum_range_of_ne (f := c.roundsOf) (g := (c.put index b').roundsOf)
    (h.lt_newest found)
    fun i hne => roundsOf_congr (batch?_put_of_ne h.sound hne b')
  rw [roundsOf_of_batch? found, roundsOf_of_batch? (batch?_put_self h.sound found b')] at hsum
  have hnewest : (c.put index b').registry.newest = c.registry.newest :=
    Registry.newest_replace ..
  unfold total
  rw [hnewest]
  exact hsum

theorem total_insert (h : c.Kept) {registry : Registry} (fresh : b.rounds = 0)
    (inserted : c.registry.insert? b = some (index, registry)) :
    ({ c with registry := registry } : Crew).total = c.total := by
  obtain ⟨rfl, hnewest, hnew, -⟩ := Registry.get?_of_insert? h.sound inserted
  have hsame : ({ c with registry := registry } : Crew).roundsOf = c.roundsOf :=
    funext (h.roundsOf_insert fresh inserted)
  have hzero : c.roundsOf c.registry.newest = 0 := by
    rw [← hsame, roundsOf_of_batch? (batch?_of_get? hnew), fresh]
  unfold total
  rw [hsame, hnewest, List.range_succ, List.map_append, List.sum_append,
    List.map_singleton, List.sum_singleton, hzero, Nat.add_zero]

theorem total_remove (h : c.Kept) {registry : Registry}
    (removed : c.registry.remove? index = some (b, registry)) (metrics : Metrics) :
    ({ c with
      registry := registry
      removed := Function.update c.removed index (some b)
      metrics := metrics } : Crew).total = c.total := by
  have hnewest := (Registry.get?_of_remove? h.sound removed).2.2.1
  unfold total roundsOf
  simp only [batch?_of_remove? h.sound removed metrics, hnewest]

theorem own_put (h : c.Kept) {before left : Nat} {work : Work}
    (running : c.calls[call]? = some (.running index before left work))
    (found : c.batch? index = some b) (more : b.rounds ≤ b'.rounds) (scans : Scans)
    (holder : Nat → Option Nat)
    (counted : a'.own = work.rounds + (b'.rounds - b.rounds))
    (own : c.sum Attempt.own = c.total) :
    let c' := { c.put index b' with scans := scans, holder := holder }.setCall call a'
    c'.sum Attempt.own = c'.total := by
  intro c'
  have hsum : c'.sum Attempt.own + work.rounds = c.sum Attempt.own + a'.own :=
    sum_setCall running a' Attempt.own
  have htotal : c'.total + b.rounds = c.total + b'.rounds := total_put h found b'
  omega

/-- Every completed round was run by a call. -/
theorem own_step (h : c.Kept) (s : Step sch c c') (own : c.sum Attempt.own = c.total) :
    c'.sum Attempt.own = c'.total := by
  cases s with
  | idle => exact own
  | insert fresh peopled inserted =>
    exact own.trans (total_insert h fresh inserted).symm
  | move scans => exact own
  | look outside =>
    rw [sum_makeCall]
    rcases outside with rfl | ⟨index, rfl⟩ <;> exact own
  | refuse made | lock made | enter made | leave made | release made | read made
  | pass made =>
    refine (sum_setCall_of_eq made ?_).trans own
    rfl
  | round scans running found more emptied counted =>
    exact own_put h running found more scans _ counted own
  | crash scans running found more emptied counted =>
    exact own_put h running found more scans _ counted own
  | remove leaving drained removed =>
    refine (sum_setCall_of_eq leaving ?_).trans
      (own.trans (total_remove h removed c.metrics.countDrained).symm)
    rfl

theorem roundsPropagated_addReport (m : Metrics) (report : Report) :
    (addReport m report).roundsPropagated =
      m.roundsPropagated + UInt64.ofNat report.rounds := by
  unfold addReport
  split <;> rfl

/-- The metrics have the rounds that the calls have told. -/
theorem told_step (s : Step sch c c')
    (told : c.metrics.roundsPropagated = UInt64.ofNat (c.sum Attempt.reported)) :
    c'.metrics.roundsPropagated = UInt64.ofNat (c'.sum Attempt.reported) := by
  cases s with
  | idle | insert | move => exact told
  | look outside =>
    rw [sum_makeCall]
    rcases outside with rfl | ⟨index, rfl⟩ <;> exact told
  | refuse made | lock made | enter made | leave made | round scans made
  | crash scans made | release made | pass made | remove made =>
    refine told.trans (congrArg UInt64.ofNat (sum_setCall_of_eq made ?_).symm)
    rfl
  | @read call index before after work drained b report released =>
    have hsum : ({ c with metrics := addReport c.metrics report }.setCall call
        (.leaving report work.rounds (b.rounds - after))).sum Attempt.reported + 0 =
        c.sum Attempt.reported + report.rounds :=
          sum_setCall released _ Attempt.reported
    rw [Nat.add_zero] at hsum
    rw [hsum, UInt64.ofNat_add, ← told]
    exact roundsPropagated_addReport c.metrics report

theorem mem_drained (h : c.Kept) :
    index ∈ c.drained ↔ (c.removed index).isSome = true := by
  unfold drained
  rw [List.mem_filter, List.mem_range, and_iff_right_iff_imp]
  intro removed
  obtain ⟨b, hb⟩ := Option.isSome_iff_exists.mp removed
  exact (h.gone index b hb).1

theorem nodup_drained (c : Crew) : c.drained.Nodup := List.nodup_range.filter _

theorem length_drained_of_same (h : c.Kept) (h' : c'.Kept)
    (same : ∀ i, (c'.removed i).isSome = (c.removed i).isSome) :
    c'.drained.length = c.drained.length := by
  refine List.Perm.length_eq
    ((List.perm_ext_iff_of_nodup c'.nodup_drained c.nodup_drained).mpr fun i => ?_)
  rw [mem_drained h, mem_drained h', same]

theorem length_drained_of_new (h : c.Kept) (h' : c'.Kept)
    (live : c.registry.get? index = some b)
    (new : c'.removed = Function.update c.removed index (some b)) :
    c'.drained.length = c.drained.length + 1 := by
  have hout : index ∉ c.drained := by
    rw [mem_drained h, Option.isSome_iff_exists]
    rintro ⟨removed, hremoved⟩
    cases (h.gone index removed hremoved).2.1.symm.trans live
  refine List.Perm.length_eq
    ((List.perm_ext_iff_of_nodup c'.nodup_drained
      (List.nodup_cons.mpr ⟨hout, c.nodup_drained⟩)).mpr fun i => ?_)
  rw [List.mem_cons, mem_drained h, mem_drained h', new]
  by_cases hsame : i = index
  · simp [hsame]
  · simp [hsame]

/-- Every batch that is removed is counted then. -/
theorem drained_step (h : c.Kept) (s : Step sch c c')
    (counted : c.metrics.batchesDrained = UInt64.ofNat c.drained.length) :
    c'.metrics.batchesDrained = UInt64.ofNat c'.drained.length := by
  have hkept := h.step s
  cases s with
  | idle | move | look | refuse | lock | enter | leave | release | pass => exact counted
  | insert =>
    exact counted.trans
      (congrArg UInt64.ofNat (length_drained_of_same h hkept fun _ => rfl).symm)
  | round | crash =>
    exact counted.trans
      (congrArg UInt64.ofNat
        (length_drained_of_same h hkept (isSome_removed_put c _ _)).symm)
  | @read call index before after work drained b report =>
    have hmetrics : (addReport c.metrics report).batchesDrained =
        c.metrics.batchesDrained := by
      unfold addReport
      split <;> rfl
    exact hmetrics.trans counted
  | remove leaving drained removed =>
    rw [length_drained_of_new h hkept (Registry.get?_of_remove? h.sound removed).1 rfl,
      UInt64.ofNat_add, ← counted]
    rfl

end

/-! ## The account of a run -/

/-- What the counters of a crew amount to. -/
structure Accounted (c : Crew) : Prop where
  /-- every completed round was run by one call -/
  own : c.sum Attempt.own = c.total
  /-- the metrics have what the calls have told -/
  told : c.metrics.roundsPropagated = UInt64.ofNat (c.sum Attempt.reported)
  /-- what was told are the completed rounds, without those that nobody
  tells, and some twice -/
  balance : c.sum Attempt.reported + c.sum Attempt.untold =
    c.total + c.sum Attempt.grown
  /-- a call tells the rounds that it ran, and those that came in
  between its readings -/
  reports : ∀ report own grown, .returned report own grown ∈ c.calls →
    report.rounds = own + grown
  /-- the metrics have every removed batch once -/
  drained : c.metrics.batchesDrained = UInt64.ofNat c.drained.length ∧ c.drained.Nodup
  /-- a batch is removed only if it has no members -/
  empty : ∀ index ∈ c.drained, ∃ b, c.batch? index = some b ∧ b.members = []
  /-- when all calls are over, a batch without members was removed, unless a
  call has crashed on it -/
  removed : (∀ a ∈ c.calls, a.isOver = true) → ∀ index b, c.batch? index = some b →
    b.members = [] →
    index ∈ c.drained ∨ ∃ own, .crashed index own ∈ c.calls

section

variable {sch : Scheduler} {c c' : Crew}

/-- The invariant of all parts together. -/
structure Tallied (c : Crew) : Prop where
  kept : c.Kept
  own : c.sum Attempt.own = c.total
  told : c.metrics.roundsPropagated = UInt64.ofNat (c.sum Attempt.reported)
  drained : c.metrics.batchesDrained = UInt64.ofNat c.drained.length

theorem Tallied.answer (h : c.Tallied) (sch : Scheduler) (part : CrewPart) :
    (c.answer sch part).Tallied :=
  have hstep := step_answer sch c part
  ⟨h.kept.step hstep, own_step h.kept hstep h.own, told_step hstep h.told,
    drained_step h.kept hstep h.drained⟩

theorem Tallied.answerAll (h : c.Tallied) (sch : Scheduler) (parts : List CrewPart) :
    (c.answerAll sch parts).Tallied := by
  induction parts generalizing c with
  | nil => exact h
  | cons part parts ih => exact ih (h.answer sch part)

theorem tallied_ofCapacity (capacity : Nat) (scans : Scans) :
    (ofCapacity capacity scans).Tallied where
  kept := kept_ofCapacity capacity scans
  own := rfl
  told := rfl
  drained := rfl

/-- What a call has told or kept to itself is what it has run, and what came in
between its readings. -/
theorem Fits.balance {call : Nat} {a : Attempt} (h : c.Fits call a) :
    a.reported + a.untold = a.own + a.grown := by
  cases a with
  | leaving report own grown => exact h.1
  | returned report own grown => exact h.1
  | found | holding | running | released | refused | crashed => exact Nat.add_comm ..

theorem Tallied.accounted (h : c.Tallied) : c.Accounted := by
  refine ⟨h.own, h.told, ?_, ?_, ⟨h.drained, c.nodup_drained⟩, ?_, ?_⟩
  · have hcalls : c.calls.map (fun a => a.reported + a.untold) = c.calls.map fun a =>
        a.own + a.grown := by
      refine List.map_congr_left fun a ha => ?_
      obtain ⟨call, hcall⟩ := List.mem_iff_getElem?.mp ha
      exact (h.kept.fits call a hcall).balance
    have hsums := congrArg List.sum hcalls
    rw [List.sum_map_add, List.sum_map_add] at hsums
    rw [← h.own]
    exact hsums
  · intro report own grown returned
    obtain ⟨call, hcall⟩ := List.mem_iff_getElem?.mp returned
    exact (h.kept.fits call _ hcall).1
  · intro index hindex
    obtain ⟨b, hb⟩ := Option.isSome_iff_exists.mp ((mem_drained h.kept).mp hindex)
    obtain ⟨-, hgone, hempty⟩ := h.kept.gone index b hb
    exact ⟨b, by rw [batch?, hgone, Option.none_or, hb], hempty⟩
  · intro ended index b found hempty
    cases live : c.registry.get? index with
    | none =>
      rw [batch?, live, Option.none_or] at found
      exact .inl ((mem_drained h.kept).mpr (Option.isSome_iff_exists.mpr ⟨b, found⟩))
    | some b' =>
      rw [batch?_of_get? live] at found
      cases found
      obtain ⟨call, a, hcall, howes⟩ := h.kept.owed index b live hempty
      have ha := List.mem_of_getElem? hcall
      have hended := ended a ha
      cases a with
      | crashed i own => exact .inr ⟨own, howes ▸ ha⟩
      | found | holding | refused | returned => exact howes.elim
      | running | released | leaving => cases hended

/-- When all calls are over, none has crashed and nothing came in between their
readings, every round was told once, by the call that ran it, and every batch
without members was removed. -/
theorem Accounted.counted_once (h : c.Accounted)
    (ended : ∀ a ∈ c.calls, a.isOver = true)
    (safe : ∀ index own, .crashed index own ∉ c.calls)
    (calm : ∀ a ∈ c.calls, a.grown = 0) :
    c.metrics.roundsPropagated = UInt64.ofNat c.total ∧
      (∀ report own grown, .returned report own grown ∈ c.calls → report.rounds = own) ∧
      ∀ index b, c.batch? index = some b → (b.members = [] ↔ index ∈ c.drained) := by
  have huntold : c.sum Attempt.untold = 0 := by
    refine List.sum_eq_zero (List.forall_mem_map.mpr fun a ha => ?_)
    have hended := ended a ha
    cases a with
    | returned | refused => rfl
    | crashed index own => exact absurd ha (safe index own)
    | found | holding | running | released | leaving => cases hended
  have hgrown : c.sum Attempt.grown = 0 :=
    List.sum_eq_zero (List.forall_mem_map.mpr calm)
  have hbalance := h.balance
  rw [huntold, hgrown, Nat.add_zero, Nat.add_zero] at hbalance
  refine ⟨hbalance ▸ h.told, ?_, ?_⟩
  · intro report own grown returned
    have hnone : grown = 0 := calm _ returned
    rw [h.reports report own grown returned, hnone, Nat.add_zero]
  · intro index b found
    constructor
    · intro hempty
      rcases h.removed ended index b found hempty with hdrained | ⟨own, crashed⟩
      · exact hdrained
      · exact absurd crashed (safe index own)
    · intro hdrained
      obtain ⟨b', found', hempty⟩ := h.empty index hdrained
      rw [found] at found'
      cases found'
      exact hempty

end

/-- Whatever parts calls do in whatever order, the counters amount to what the
calls have run, with what came in between their readings told twice and what
crashed calls have run told by nobody. -/
theorem accounted_answerAll (sch : Scheduler) (capacity : Nat) (scans : Scans)
    (parts : List CrewPart) :
    ((ofCapacity capacity scans).answerAll sch parts).Accounted :=
  ((tallied_ofCapacity capacity scans).answerAll sch parts).accounted

/-- A scan of a few rows. -/
def fewRows (rows : Nat) : Scans where
  graph := default
  cursors :=
    Array.replicate 2 { source := .script (List.replicate rows (.row (.nat 1))) }

/-- Two calls find a batch of which there are two rounds to run.  The second runs
its round when the first has released the lock and not read the count again. -/
def overlapping : List CrewPart := [
  .insert "batch" [⟨0, "rows", { kind := .allNodes, cursor := 0, links := [] }⟩],
  .look 0 0, .look 0 0, .lock 0, .gate 0, .round 0 none 0, .release 0,
  .lock 1, .gate 1, .round 1 none 0, .read 0, .release 1, .read 1, .remove 0, .remove 1]

/-- A call completes a round and crashes in the next, when a member has its
limit of rows and the receiver does not take it.  Another one finds the batch
empty and removes it. -/
def crashing : List CrewPart := [
  .insert "batch"
    [⟨0, "one", { kind := .allNodes, cursor := 0, links := [.ofQuota 1] }⟩,
    ⟨1, "rows", { kind := .allNodes, cursor := 1, links := [] }⟩],
  .look 0 0, .lock 0, .gate 0, .round 0 none 0, .round 0 (some .other) 0,
  .look 0 0, .lock 1, .gate 1, .round 1 none 0, .round 1 none 0, .release 1, .read 1, .remove 1]

/-- One round is told by two calls, and one by nobody. -/
theorem rounds_miscounted :
    (let c := (ofCapacity 1 (fewRows 1)).answerAll ⟨1, 0, 0⟩ overlapping;
      (∀ a ∈ c.calls, a.isOver = true) ∧ c.total = 2 ∧ c.metrics.roundsPropagated = 3 ∧
        .returned ⟨0, 2, false, false, false⟩ 1 1 ∈ c.calls) ∧
      let c := (ofCapacity 1 (fewRows 2)).answerAll ⟨2, 0, 0⟩ crashing;
      (∀ a ∈ c.calls, a.isOver = true) ∧ c.total = 1 ∧ c.metrics.roundsPropagated = 0 ∧
        .crashed 0 1 ∈ c.calls ∧ c.drained = [0] := by
  decide +kernel

end Crew

end Lockstep
