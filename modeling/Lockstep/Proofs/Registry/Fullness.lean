import Lockstep.Proofs.Registry.IndexMap
set_option autoImplicit false

/-!
# A fullness check without the lock

Whether a registry is full is told by two cursors.  Under the lock both belong
to one state.  Without it `newest` is loaded first and `oldest` when others may
have inserted and removed batches, so they belong to two states.  As long as the
difference does not underflow, a check that answers that the registry is full is
right, even for all states in between.  But it underflows when the index that
was next has been given out meanwhile, and it and all before it are gone: then
the check fails, or finds a registry full that never was.
-/

namespace Lockstep.Registry

variable {r r' s s' : Registry}

/-! ## Later states -/

/-- What a registry keeps of an earlier state of it. -/
structure Follows (r r' : Registry) : Prop where
  kept : r'.WellKept
  capacity : r'.capacity = r.capacity
  oldest : r.oldest ≤ r'.oldest
  newest : r.newest ≤ r'.newest

theorem Follows.trans {r'' : Registry} (h : Follows r r') (h' : Follows r' r'') :
    Follows r r'' :=
  ⟨h'.kept, h'.capacity.trans h.capacity, Nat.le_trans h.oldest h'.oldest,
    Nat.le_trans h.newest h'.newest⟩

/-- Neither cursor ever goes back. -/
theorem follows_answer (h : r.WellKept) (request : Request) :
    Follows r (r.answer request).2 := by
  obtain ⟨-, hkept, hcapacity, -⟩ := h.answer request
  suffices hgrown : r.oldest ≤ (r.answer request).2.oldest ∧
    r.newest ≤ (r.answer request).2.newest from ⟨hkept, hcapacity, hgrown.1, hgrown.2⟩
  have hsame : r.oldest ≤ r.oldest ∧ r.newest ≤ r.newest :=
    ⟨Nat.le_refl _, Nat.le_refl _⟩
  cases request with
  | insert b =>
    unfold answer insert?
    dsimp only
    split
    · rename_i hinsert
      split at hinsert
      · cases hinsert
      · cases hinsert
        exact ⟨Nat.le_refl _, Nat.le_succ _⟩
    · exact hsame
  | remove index =>
    unfold answer remove?
    dsimp only
    split
    · rename_i hremove
      obtain ⟨live, -, hremoved⟩ := Option.map_eq_some_iff.mp hremove
      cases hremoved
      have hordered : { r.setSlot index none with live := r.live - 1 }.oldest ≤
          { r.setSlot index none with live := r.live - 1 }.newest := h.sound.ordered
      exact ⟨(oldest_compact hordered).1, Nat.le_refl _⟩
    · exact hsame
  | get index => exact hsame
  | drain => exact ⟨h.sound.ordered, Nat.le_refl _⟩

theorem follows_answerAll (h : r.WellKept) (requests : List Request) :
    Follows r (r.answerAll requests).2 := by
  induction requests generalizing r with
  | nil => exact ⟨h, rfl, Nat.le_refl _, Nat.le_refl _⟩
  | cons request requests ih =>
    have hfirst := follows_answer h request
    exact hfirst.trans (ih hfirst.kept)

/-- Between two states lie those after the first few requests. -/
theorem follows_take (h : r.WellKept) (requests : List Request) (count : Nat) :
    Follows r (r.answerAll (requests.take count)).2 ∧
      Follows (r.answerAll (requests.take count)).2 (r.answerAll requests).2 := by
  induction requests generalizing r count with
  | nil =>
    rw [List.take_nil]
    exact ⟨follows_answerAll h [], follows_answerAll h []⟩
  | cons request requests ih =>
    have hfirst := follows_answer h request
    cases count with
    | zero => exact ⟨follows_answerAll h [], follows_answerAll h (request :: requests)⟩
    | succ count =>
      obtain ⟨hbefore, hbehind⟩ := ih hfirst.kept count
      exact ⟨hfirst.trans hbefore, hbehind⟩

/-! ## The check -/

/-- The check that loads `newest` in one state and `oldest` in a later one; none
if the difference underflows. -/
def checkFull? (s s' : Registry) : Option Bool :=
  if s.newest < s'.oldest then none else some (s.capacity ≤ s.newest - s'.oldest)

/-- The same check where the difference of 64 bits wraps around. -/
def checkFullWrapping (s s' : Registry) : Bool :=
  s.capacity ≤ (UInt64.ofNat s.newest - UInt64.ofNat s'.oldest).toNat

/-- In a single state the check tells whether the registry is full. -/
theorem checkFull?_self (h : r.Sound) : r.checkFull? r = some r.isFull :=
  if_neg (Nat.not_lt.mpr h.ordered)

/-- The check underflows exactly if the index that was next has been given out,
and nothing up to it is live any more. -/
theorem checkFull?_eq_none_iff (h : Follows s s') :
    s.checkFull? s' = none ↔ s.newest < s'.newest ∧ ∀ index ≤ s.newest,
      s'.get? index = none := by
  have hunderflow : s.checkFull? s' = none ↔ s.newest < s'.oldest := by
    unfold checkFull?
    split <;> simp_all
  rw [hunderflow]
  constructor
  · intro hpassed
    refine ⟨Nat.lt_of_lt_of_le hpassed h.kept.sound.ordered,
      fun index hle => get?_of_not_inWindow ?_⟩
    rw [Bool.eq_false_iff, ne_eq, inWindow_iff]
    omega
  · rintro ⟨hgiven, hgone⟩
    rcases h.kept.compacted with hempty | hlive
    · omega
    · refine Nat.lt_of_not_le fun hle => ?_
      rw [hgone _ hle] at hlive
      cases hlive

/-- Otherwise the check answers that the registry is full exactly if it was when
`newest` was loaded, and `oldest` has not moved since. -/
theorem checkFull?_eq_some_true_iff (sound : s.Sound) (h : Follows s s') :
    s.checkFull? s' = some true ↔ s.isFull = true ∧ s'.oldest = s.oldest := by
  have hfits := sound.fits
  have hcapacity := sound.capacity
  have holdest := h.oldest
  unfold checkFull? isFull
  rw [decide_eq_true_eq]
  split
  · simp only [reduceCtorEq, false_iff]
    omega
  · rw [Option.some.injEq, decide_eq_true_eq]
    omega

/-- A registry that was full is full as long as `oldest` has not moved. -/
theorem Follows.isFull (h : Follows r r') (full : r.isFull = true)
    (oldest : r'.oldest = r.oldest) :
    r'.isFull = true := by
  have hnewest := h.newest
  unfold Registry.isFull at full ⊢
  rw [decide_eq_true_eq] at full ⊢
  rw [h.capacity, oldest]
  omega

/-- Where the difference wraps around, an underflow is taken for a full registry. -/
theorem checkFullWrapping_iff (sound : s.Sound) (h : Follows s s')
    (counted : s'.newest + s.capacity ≤ 2 ^ 64) :
    s.checkFullWrapping s' = true ↔ s.checkFull? s' ≠ some false := by
  have hcapacity := sound.capacity
  have hnewest := h.newest
  have hordered := h.kept.sound.ordered
  have hword : (UInt64.ofNat s.newest).toNat = s.newest := by
    rw [UInt64.toNat_ofNat']
    exact Nat.mod_eq_of_lt (by omega)
  have hword' : (UInt64.ofNat s'.oldest).toNat = s'.oldest := by
    rw [UInt64.toNat_ofNat']
    exact Nat.mod_eq_of_lt (by omega)
  unfold checkFullWrapping checkFull?
  rw [decide_eq_true_eq, UInt64.toNat_sub, hword, hword']
  split
  · simp only [ne_eq, reduceCtorEq, not_false_eq_true, iff_true]
    rw [Nat.mod_eq_of_lt (by omega)]
    omega
  · have hwrapped : (2 ^ 64 - s'.oldest + s.newest) % 2 ^ 64 =
        s.newest - s'.oldest := by
      omega
    rw [hwrapped]
    simp

/-- Whatever was asked of the registry before the check and between its two
loads: it underflows exactly if the index that was next has been given out
meanwhile and no batch up to it is left.  Otherwise it answers that the
registry is full exactly if it was and its oldest index is the same, and then
it was full all the time.  Where the difference wraps around, an underflow
also passes for a full registry. -/
theorem fullness_across_loads (capacity : Nat) (earlier between : List Request) :
    let s := ((ofCapacity capacity).answerAll earlier).2
    let s' := (s.answerAll between).2
    (s.checkFull? s' = none ↔ s.newest < s'.newest ∧ ∀ index ≤ s.newest,
      s'.get? index = none) ∧
      (s.checkFull? s' = some true ↔ s.isFull = true ∧ s'.oldest = s.oldest) ∧
      (s.checkFull? s' = some true → ∀ count,
        (s.answerAll (between.take count)).2.isFull = true) ∧
      (s'.newest + s.capacity ≤ 2 ^ 64 →
        (s.checkFullWrapping s' = true ↔ s.checkFull? s' ≠ some false)) := by
  intro s s'
  have hkept : s.WellKept :=
    (follows_answerAll (wellKept_ofCapacity capacity) earlier).kept
  have hfollows : Follows s s' := follows_answerAll hkept between
  have htrue := checkFull?_eq_some_true_iff hkept.sound hfollows
  refine ⟨checkFull?_eq_none_iff hfollows, htrue, fun hanswer count => ?_,
    checkFullWrapping_iff hkept.sound hfollows⟩
  obtain ⟨hfull, holdest⟩ := htrue.mp hanswer
  obtain ⟨hbefore, hbehind⟩ := follows_take hkept between count
  refine hbefore.isFull hfull (Nat.le_antisymm ?_ hbefore.oldest)
  exact holdest ▸ hbehind.oldest

/-- A registry for one batch that has one is found full when somebody looks for
another in between. -/
theorem fullness_across_loads_one :
    let s := ((ofCapacity 1).answerAll [.insert default]).2
    let between : List Request := [.remove 7, .insert default]
    let s' := (s.answerAll between).2
    s.checkFull? s' = some true ∧ s.checkFullWrapping s' = true ∧
      ∀ count, (s.answerAll (between.take count)).2.isFull = true := by
  intro s between s'
  obtain ⟨-, hanswer, hfull, hwrapping⟩ :=
    fullness_across_loads 1 [.insert default] between
  have htrue : s.checkFull? s' = some true := hanswer.mpr (by decide +kernel)
  refine ⟨htrue, (hwrapping (by decide +kernel)).mpr ?_, hfull htrue⟩
  rw [htrue]
  nofun

/-- A batch comes in and leaves between the two loads of a check of an empty
registry: the difference underflows, and where it wraps around, the check finds
a registry full that never has more than one batch of two. -/
theorem fullness_underflows :
    let s := ofCapacity 2
    let between : List Request := [.insert default, .remove 0]
    let s' := (s.answerAll between).2
    s.newest = 0 ∧ s'.oldest = 1 ∧ s.checkFull? s' = none ∧
      s.checkFullWrapping s' = true ∧
      ∀ count ≤ between.length,
        (s.answerAll (between.take count)).2.isFull = false := by
  decide +kernel

end Lockstep.Registry
