import Lockstep.Proofs.Registry.Ring
set_option autoImplicit false

/-!
# Looking up an index

Indexes are never used twice.  An insertion gives the next index its batch, a
removal takes the batch of one index away for good, and a replacement changes
the batch of one live index; what every other index has stays as it is, although
indexes share slots.
-/

namespace Lockstep.Registry

variable {r r' : Registry} {index other : Nat} {b b' : Batch}

theorem lt_newest_of_get? (h : r.get? index = some b) : index < r.newest :=
  (inWindow_iff.mp (inWindow_of_get? h)).2

theorem get?_of_inWindow (h : r.inWindow index = true) :
    r.get? index = r.inSlot index := if_pos h

theorem get?_of_not_inWindow (h : r.inWindow index = false) : r.get? index = none := by
  unfold get?
  rw [h]
  rfl

/-- Two indexes of the window lie in different slots. -/
theorem slotOf_ne_of_inWindow (hr : r.Sound) (h : r.inWindow index = true)
    (hother : r.inWindow other = true) (hne : other ≠ index) :
    r.slotOf index ≠ r.slotOf other := by
  obtain ⟨hge, hlt⟩ := inWindow_iff.mp h
  obtain ⟨hge', hlt'⟩ := inWindow_iff.mp hother
  have hfits := hr.fits
  rcases Nat.lt_or_gt_of_ne hne with hless | hgreater
  · exact (slotOf_ne hless (by omega)).symm
  · exact slotOf_ne hgreater (by omega)

theorem get?_setSlot_of_ne (hr : r.Sound) (h : r.inWindow index = true)
    (hne : other ≠ index) (content : Option Batch) :
    (r.setSlot index content).get? other = r.get? other := by
  have hsame : (r.setSlot index content).inWindow other = r.inWindow other := rfl
  cases hother : r.inWindow other with
  | true =>
    rw [get?_of_inWindow (hsame.trans hother), get?_of_inWindow hother]
    exact inSlot_setSlot_of_ne (slotOf_ne_of_inWindow hr h hother hne) content
  | false => rw [get?_of_not_inWindow (hsame.trans hother), get?_of_not_inWindow hother]

/-! ## Replacing a batch -/

theorem Sound.replace (hr : r.Sound) (index : Nat) (b : Batch) :
    (r.replace index b).Sound := by
  unfold Registry.replace
  split
  · exact hr.setSlot index _
  · exact hr

@[simp] theorem newest_replace (r : Registry) (index : Nat) (b : Batch) :
    (r.replace index b).newest = r.newest := by
  unfold replace
  split <;> rfl

@[simp] theorem oldest_replace (r : Registry) (index : Nat) (b : Batch) :
    (r.replace index b).oldest = r.oldest := by
  unfold replace
  split <;> rfl

theorem get?_replace_self (hr : r.Sound) (h : r.get? index = some b) (b' : Batch) :
    (r.replace index b').get? index = some b' := by
  rw [replace_of_get? h]
  exact get?_setSlot hr (inWindow_of_get? h) _

theorem get?_replace_of_ne (hr : r.Sound) (h : r.get? index = some b)
    (hne : other ≠ index) (b' : Batch) :
    (r.replace index b').get? other = r.get? other := by
  rw [replace_of_get? h]
  exact get?_setSlot_of_ne hr (inWindow_of_get? h) hne _

/-- Putting back the batch that is there changes nothing. -/
theorem replace_self (h : r.get? index = some b) : r.replace index b = r := by
  have hslot := get?_of_inWindow (inWindow_of_get? h)
  rw [h] at hslot
  rw [replace_of_get? h]
  unfold inSlot at hslot
  unfold setSlot
  have hsame : r.slots.setIfInBounds (r.slotOf index) (some b) = r.slots := by
    refine Array.ext_getElem? fun slot => ?_
    rw [Array.getElem?_setIfInBounds]
    split
    · rename_i heq
      subst heq
      rw [Array.getD_eq_getD_getElem?] at hslot
      cases hfound : r.slots[r.slotOf index]? with
      | none =>
        rw [hfound] at hslot
        cases hslot
      | some content =>
        rw [hfound] at hslot
        rw [if_pos (Array.getElem?_eq_some_iff.mp hfound).1]
        exact congrArg some hslot
    · rfl
  rw [hsame]

theorem replace_replace (hr : r.Sound) (h : r.get? index = some b) (b' b'' : Batch) :
    (r.replace index b').replace index b'' = r.replace index b'' := by
  rw [replace_of_get? (get?_replace_self hr h b'), replace_of_get? h, replace_of_get? h]
  unfold setSlot slotOf
  rw [Array.setIfInBounds_setIfInBounds]

theorem setLocked_of_get? (h : r.get? index = some b) (locked : Bool) :
    r.setLocked index locked = r.replace index { b with locked := locked } := by
  unfold setLocked
  rw [h, replace_of_get? h]

theorem setLocked_of_get?_eq_none (h : r.get? index = none) (locked : Bool) :
    r.setLocked index locked = r := by
  unfold setLocked
  rw [h]

/-! ## Inserting a batch -/

/-- An inserted batch gets the next index. -/
theorem get?_of_insert? (hr : r.Sound) (h : r.insert? b = some (index, r')) :
    index = r.newest ∧ r'.newest = r.newest + 1 ∧ r'.get? index = some b ∧
      ∀ other, other ≠ index → r'.get? other = r.get? other := by
  unfold insert? at h
  split at h
  · cases h
  · rename_i hfull
    have hroom : r.newest - r.oldest < r.capacity := by simpa [isFull] using hfull
    have hordered := hr.ordered
    obtain ⟨rfl, hgrown⟩ := Prod.mk.inj (Option.some.inj h)
    have holdest : r'.oldest = r.oldest := hgrown ▸ rfl
    have hnewest : r'.newest = r.newest + 1 := hgrown ▸ rfl
    have hslots : r'.inSlot = (r.setSlot r.newest (some b)).inSlot := hgrown ▸ rfl
    have hwindow : ∀ other, r'.inWindow other = true ↔
        r.oldest ≤ other ∧ other < r.newest + 1 := by
      intro other
      rw [inWindow_iff, holdest, hnewest]
    refine ⟨rfl, hnewest, ?_, ?_⟩
    · rw [get?_of_inWindow ((hwindow _).mpr ⟨hordered, Nat.lt_succ_self _⟩), hslots]
      exact inSlot_setSlot_self hr _ _
    · intro other hne
      cases hother : r.inWindow other with
      | true =>
        obtain ⟨hge, hlt⟩ := inWindow_iff.mp hother
        rw [get?_of_inWindow ((hwindow _).mpr ⟨hge, Nat.lt_succ_of_lt hlt⟩),
          get?_of_inWindow hother, hslots]
        exact inSlot_setSlot_of_ne (slotOf_ne hlt (by omega)).symm _
      | false =>
        rw [get?_of_not_inWindow hother]
        refine get?_of_not_inWindow (Bool.eq_false_iff.mpr fun hinside => ?_)
        obtain ⟨hge, hlt⟩ := (hwindow _).mp hinside
        rw [inWindow_iff.mpr ⟨hge, Nat.lt_of_le_of_ne (Nat.le_of_lt_succ hlt) hne⟩] at hother
        cases hother

/-! ## Removing a batch -/

theorem inSlot_of_lt_firstTaken {count : Nat} (hge : index ≤ other)
    (hlt : other < r.firstTaken index count) : r.inSlot other = none := by
  induction count generalizing index with
  | zero => exact absurd hge (Nat.not_le_of_lt hlt)
  | succ count ih =>
    unfold firstTaken at hlt
    split at hlt
    · exact absurd hge (Nat.not_le_of_lt hlt)
    · rename_i hempty
      rcases Nat.eq_or_lt_of_le hge with rfl | hgreater
      · simpa using hempty
      · exact ih hgreater hlt

/-- Moving the window past empty slots changes no index. -/
theorem get?_compact (h : r.oldest ≤ r.newest) (index : Nat) :
    r.compact.get? index = r.get? index := by
  have hbounds := oldest_compact h
  cases hwindow : r.compact.inWindow index with
  | true =>
    obtain ⟨hge, hlt⟩ := inWindow_iff.mp hwindow
    rw [get?_of_inWindow hwindow,
      get?_of_inWindow (inWindow_iff.mpr ⟨Nat.le_trans hbounds.1 hge, hlt⟩)]
    rfl
  | false =>
    rw [get?_of_not_inWindow hwindow]
    cases hold : r.inWindow index with
    | true =>
      obtain ⟨hge, hlt⟩ := inWindow_iff.mp hold
      have hpassed : index < r.compact.oldest := by
        refine Nat.lt_of_not_le fun hle => ?_
        rw [(inWindow_iff (r := r.compact)).mpr ⟨hle, hlt⟩] at hwindow
        cases hwindow
      rw [get?_of_inWindow hold, inSlot_of_lt_firstTaken hge hpassed]
    | false => rw [get?_of_not_inWindow hold]

/-- A removal takes the batch of one index away. -/
theorem get?_of_remove? (hr : r.Sound) (h : r.remove? index = some (b, r')) :
    r.get? index = some b ∧ r'.Sound ∧ r'.newest = r.newest ∧ r'.get? index = none ∧
      ∀ other, other ≠ index → r'.get? other = r.get? other := by
  unfold remove? at h
  obtain ⟨live, hlive, hremoved⟩ := Option.map_eq_some_iff.mp h
  obtain ⟨rfl, rfl⟩ := Prod.mk.inj hremoved
  have hwindow := inWindow_of_get? hlive
  have hcleared := hr.setSlot index none
  have hcounted : { r.setSlot index none with live := r.live - 1 }.Sound :=
    ⟨hcleared.capacity, hcleared.size, hcleared.ordered, hcleared.fits⟩
  refine ⟨hlive, hcounted.compact, rfl, ?_, ?_⟩
  · rw [get?_compact hcounted.ordered]
    exact get?_setSlot hr hwindow none
  · intro other hne
    rw [get?_compact hcounted.ordered]
    exact get?_setSlot_of_ne hr hwindow hne none

end Lockstep.Registry
