import Lockstep.Registry
import Mathlib.Data.List.Basic
set_option autoImplicit false

/-!
# The ring of live batches

No two indexes of the window share a slot, so the live batches are a list that
registry operations change in the plain way: an inserted batch is appended, and
the batch of an index is replaced or removed in its place.
-/

namespace Lockstep.Registry

/-- The window has room in the ring. -/
structure Sound (r : Registry) : Prop where
  capacity : 0 < r.capacity
  size : r.slots.size = r.capacity
  ordered : r.oldest ≤ r.newest
  fits : r.newest ≤ r.oldest + r.capacity

theorem sound_ofCapacity (capacity : Nat) : (ofCapacity capacity).Sound where
  capacity := Nat.le_max_right capacity 1
  size := Array.size_replicate
  ordered := Nat.le_refl 0
  fits := Nat.zero_le _

/-! ## Slots -/

theorem slotOf_ne {r : Registry} {index other : Nat} (hlt : index < other)
    (hclose : other < index + r.capacity) : r.slotOf index ≠ r.slotOf other := by
  intro h
  have hzero : (other - index) % r.capacity = 0 := Nat.sub_mod_eq_zero_of_mod_eq h.symm
  rw [Nat.mod_eq_of_lt (by omega)] at hzero
  omega

@[simp] theorem oldest_setSlot (r : Registry) (index : Nat) (content : Option Batch) :
    (r.setSlot index content).oldest = r.oldest := rfl

@[simp] theorem newest_setSlot (r : Registry) (index : Nat) (content : Option Batch) :
    (r.setSlot index content).newest = r.newest := rfl

theorem inSlot_setSlot_self {r : Registry} (h : r.Sound) (index : Nat)
    (content : Option Batch) :
    (r.setSlot index content).inSlot index = content := by
  have hslot : r.slotOf index < r.slots.size := h.size ▸ Nat.mod_lt index h.capacity
  have hsame : (r.setSlot index content).slotOf index = r.slotOf index := rfl
  unfold inSlot
  rw [hsame, Array.getD_eq_getD_getElem?]
  unfold setSlot
  rw [Array.getElem?_setIfInBounds_self_of_lt hslot]
  rfl

theorem inSlot_setSlot_of_ne {r : Registry} {index other : Nat}
    (h : r.slotOf index ≠ r.slotOf other) (content : Option Batch) :
    (r.setSlot index content).inSlot other = r.inSlot other := by
  have hsame : (r.setSlot index content).slotOf other = r.slotOf other := rfl
  unfold inSlot
  rw [hsame, Array.getD_eq_getD_getElem?, Array.getD_eq_getD_getElem?]
  unfold setSlot
  rw [Array.getElem?_setIfInBounds_ne h]

theorem Sound.setSlot {r : Registry} (h : r.Sound) (index : Nat)
    (content : Option Batch) :
    (r.setSlot index content).Sound :=
  ⟨h.capacity, Array.size_setIfInBounds.trans h.size, h.ordered, h.fits⟩

/-! ## Spans of the window -/

/-- What lies in the slots of so many indexes from one on. -/
def span (r : Registry) (index count : Nat) : List Batch :=
  (List.range' index count).filterMap r.inSlot

theorem batches_eq_span (r : Registry) :
    r.batches = r.span r.oldest (r.newest - r.oldest) := by
  unfold batches window span
  rw [List.range'_eq_map_range]

theorem span_add (r : Registry) (index count count' : Nat) :
    r.span index (count + count') = r.span index count ++
      r.span (index + count) count' := by
  unfold span
  rw [← List.range'_append_1, List.filterMap_append]

theorem span_one (r : Registry) (index : Nat) :
    r.span index 1 = (r.inSlot index).toList := by
  unfold span
  rw [List.range'_one, List.filterMap_cons]
  cases r.inSlot index <;> rfl

theorem span_congr {r r' : Registry} {index count : Nat}
    (h : ∀ other, index ≤ other → other < index + count →
      r'.inSlot other = r.inSlot other) :
    r'.span index count = r.span index count := by
  refine List.filterMap_congr ?_
  intro other hother
  obtain ⟨hge, hlt⟩ := List.mem_range'_1.mp hother
  exact h other hge hlt

/-- Empty slots do not count. -/
theorem span_firstTaken (r : Registry) (index count : Nat) :
    r.span (r.firstTaken index count) (index + count - r.firstTaken index count) =
      r.span index count := by
  induction count generalizing index with
  | zero =>
    rw [firstTaken, Nat.add_zero, Nat.sub_self]
  | succ count ih =>
    unfold firstTaken
    split
    · rw [Nat.add_sub_cancel_left]
    · rename_i hempty
      have hslot : r.inSlot index = none := by simpa using hempty
      have hrest := ih (index + 1)
      rw [Nat.add_assoc, Nat.add_comm 1 count] at hrest
      rw [hrest, Nat.add_comm count 1, span_add, span_one, hslot]
      rfl

/-! ## The batch of an index -/

/-- The live batches before an index. -/
def before (r : Registry) (index : Nat) : List Batch :=
  r.span r.oldest (index - r.oldest)

/-- The live batches behind an index. -/
def behind (r : Registry) (index : Nat) : List Batch :=
  r.span (index + 1) (r.newest - (index + 1))

theorem inWindow_iff {r : Registry} {index : Nat} :
    r.inWindow index = true ↔ r.oldest ≤ index ∧ index < r.newest := by
  unfold inWindow
  rw [Bool.and_eq_true, decide_eq_true_eq, decide_eq_true_eq]

theorem batches_split {r : Registry} {index : Nat} (h : r.inWindow index = true) :
    r.batches = r.before index ++ ((r.inSlot index).toList ++ r.behind index) := by
  obtain ⟨hge, hlt⟩ := inWindow_iff.mp h
  have hcount : r.newest - r.oldest =
    (index - r.oldest) + (1 + (r.newest - (index + 1))) := by omega
  have hindex : r.oldest + (index - r.oldest) = index := by omega
  rw [batches_eq_span, hcount, span_add, span_add, span_one, hindex]
  rfl

theorem batches_of_get? {r : Registry} {index : Nat} {b : Batch}
    (h : r.get? index = some b) :
    r.batches = r.before index ++ b :: r.behind index := by
  have hwindow := inWindow_of_get? h
  unfold get? at h
  rw [if_pos hwindow] at h
  rw [batches_split hwindow, h]
  rfl

theorem mem_batches_of_get? {r : Registry} {index : Nat} {b : Batch}
    (h : r.get? index = some b) :
    b ∈ r.batches := by
  rw [batches_of_get? h]
  exact List.mem_append_right _ List.mem_cons_self

theorem mem_batches_of_others {r : Registry} {index : Nat} {b other : Batch}
    (h : r.get? index = some b) (hother : other ∈ r.before index ++ r.behind index) :
    other ∈ r.batches := by
  rw [batches_of_get? h]
  exact ((List.sublist_cons_self b _).append_left _).subset hother

theorem before_setSlot {r : Registry} (hr : r.Sound) {index : Nat}
    (h : r.inWindow index = true) (content : Option Batch) :
    (r.setSlot index content).before index = r.before index := by
  obtain ⟨hge, hlt⟩ := inWindow_iff.mp h
  have hfits := hr.fits
  refine span_congr fun other hother hless => inSlot_setSlot_of_ne (Ne.symm ?_) content
  rw [oldest_setSlot] at hother hless
  exact slotOf_ne (by omega) (by omega)

theorem behind_setSlot {r : Registry} (hr : r.Sound) {index : Nat}
    (h : r.inWindow index = true) (content : Option Batch) :
    (r.setSlot index content).behind index = r.behind index := by
  obtain ⟨hge, hlt⟩ := inWindow_iff.mp h
  have hfits := hr.fits
  refine span_congr fun other hother hless => inSlot_setSlot_of_ne ?_ content
  rw [newest_setSlot] at hless
  exact slotOf_ne (by omega) (by omega)

theorem batches_setSlot {r : Registry} (hr : r.Sound) {index : Nat}
    (h : r.inWindow index = true) (content : Option Batch) :
    (r.setSlot index content).batches = r.before index ++
      (content.toList ++ r.behind index) := by
  rw [batches_split (r := r.setSlot index content) h, inSlot_setSlot_self hr,
    before_setSlot hr h, behind_setSlot hr h]

theorem get?_setSlot {r : Registry} (hr : r.Sound) {index : Nat}
    (h : r.inWindow index = true) (content : Option Batch) :
    (r.setSlot index content).get? index = content := by
  have hwindow : (r.setSlot index content).inWindow index = true := h
  unfold get?
  rw [if_pos hwindow, inSlot_setSlot_self hr]

/-! ## Operations -/

theorem replace_of_get? {r : Registry} {index : Nat} {b : Batch}
    (h : r.get? index = some b) (b' : Batch) :
    r.replace index b' = r.setSlot index (some b') := by
  unfold replace
  rw [h]
  rfl

theorem batches_compact {r : Registry} (h : r.oldest ≤ r.newest) :
    r.compact.batches = r.batches := by
  have hspan := r.span_firstTaken r.oldest (r.newest - r.oldest)
  have hend : r.oldest + (r.newest - r.oldest) = r.newest := by omega
  rw [hend] at hspan
  rw [batches_eq_span, batches_eq_span, ← hspan]
  rfl

theorem Sound.compact {r : Registry} (h : r.Sound) : r.compact.Sound := by
  obtain ⟨hge, hle⟩ := oldest_compact h.ordered
  have hnewest : r.compact.newest = r.newest := rfl
  have hcapacity : r.compact.capacity = r.capacity := rfl
  have hfits := h.fits
  exact ⟨h.capacity, h.size, hle, by omega⟩

theorem exists_remove? {r : Registry} (hr : r.Sound) {index : Nat} {b : Batch}
    (h : r.get? index = some b) :
    ∃ r', r.remove? index = some (b, r') ∧ r'.Sound ∧
      r'.batches = r.before index ++ r.behind index := by
  have hwindow := inWindow_of_get? h
  have hcleared := hr.setSlot index none
  have hlive : { r.setSlot index none with live := r.live - 1 }.Sound :=
    ⟨hcleared.capacity, hcleared.size, hcleared.ordered, hcleared.fits⟩
  unfold remove?
  rw [h]
  refine ⟨_, rfl, hlive.compact, (batches_compact hlive.ordered).trans ?_⟩
  exact batches_setSlot hr hwindow none

/-- An inserted batch comes behind all others. -/
theorem batches_insert? {r r' : Registry} (hr : r.Sound) {b : Batch} {index : Nat}
    (h : r.insert? b = some (index, r')) :
    r'.Sound ∧ r'.batches = r.batches ++ [b] := by
  have hordered := hr.ordered
  unfold insert? at h
  split at h
  · cases h
  · rename_i hfull
    have hroom : r.newest - r.oldest < r.capacity := by simpa [isFull] using hfull
    cases h
    have hset := hr.setSlot r.newest (some b)
    refine ⟨⟨hset.capacity, hset.size, Nat.le_succ_of_le hordered, ?_⟩, ?_⟩
    · show r.newest + 1 ≤ r.oldest + r.capacity
      omega
    · have hcount : r.newest + 1 - r.oldest = (r.newest - r.oldest) + 1 := by omega
      have hend : r.oldest + (r.newest - r.oldest) = r.newest := by omega
      have hsame : (r.setSlot r.newest (some b)).span r.oldest (r.newest - r.oldest) =
          r.span r.oldest (r.newest - r.oldest) :=
        span_congr fun other hother hless =>
          inSlot_setSlot_of_ne (slotOf_ne (by omega) (by omega)).symm _
      rw [batches_eq_span, batches_eq_span]
      show (r.setSlot r.newest (some b)).span r.oldest (r.newest + 1 - r.oldest) = _
      rw [hcount, span_add, hend, span_one, inSlot_setSlot_self hr, hsame]
      rfl

theorem insert?_eq_none_iff {r : Registry} {b : Batch} :
    r.insert? b = none ↔ r.isFull = true := by
  unfold insert?
  split <;> simp_all

theorem batches_drain {r : Registry} (hr : r.Sound) :
    r.drain.1 = r.batches ∧ r.drain.2.Sound ∧ r.drain.2.batches = [] := by
  refine ⟨rfl, ⟨hr.capacity, Array.size_replicate.trans hr.size, Nat.le_refl _, ?_⟩, ?_⟩
  · exact Nat.le_add_right _ _
  · rw [batches_eq_span]
    show r.drain.2.span r.newest (r.newest - r.newest) = []
    rw [Nat.sub_self]
    rfl

/-! ## Draining slot by slot -/

/-- Take what lies in the slots of some indexes, one after another. -/
def takeEach (r : Registry) : List Nat → List Batch × Registry
  | [] => ([], r)
  | index :: indexes =>
    let (taken, r') := (r.setSlot index none).takeEach indexes
    ((r.inSlot index).toList ++ taken, r')

/-- A drain that takes the slots of the window one after another. -/
def drainEach (r : Registry) : List Batch × Registry :=
  let (taken, r') := r.takeEach r.window
  (taken, { r' with oldest := r.newest, live := 0 })

/-- What has been taken is no longer there for a later index of the window, but
no two share a slot. -/
theorem taken_takeEach {r : Registry} (hr : r.Sound) {index count : Nat}
    (h : count ≤ r.capacity) :
    (r.takeEach (List.range' index count)).1 = r.span index count := by
  induction count generalizing r index with
  | zero => rfl
  | succ count ih =>
    have hrest : (r.setSlot index none).span (index + 1) count =
        r.span (index + 1) count :=
      span_congr fun other hother hless =>
        inSlot_setSlot_of_ne (slotOf_ne (by omega) (by omega)) none
    have hcount : count ≤ (r.setSlot index none).capacity := Nat.le_of_succ_le h
    rw [List.range'_succ, Nat.add_comm count 1, span_add, span_one, ← hrest,
      ← ih (hr.setSlot index none) hcount]
    rfl

theorem takeEach_same (r : Registry) (indexes : List Nat) :
    (r.takeEach indexes).2 = { r with slots := (r.takeEach indexes).2.slots } ∧
      (r.takeEach indexes).2.slots.size = r.slots.size := by
  induction indexes generalizing r with
  | nil => exact ⟨rfl, rfl⟩
  | cons index indexes ih =>
    obtain ⟨hsame, hsize⟩ := ih (r.setSlot index none)
    exact ⟨hsame, hsize.trans Array.size_setIfInBounds⟩

/-- A slot that is still taken up was so before, and is not that of an index
whose slot was taken. -/
theorem slots_takeEach {r : Registry} {indexes : List Nat} {slot : Nat} {b : Batch}
    (h : (r.takeEach indexes).2.slots[slot]? = some (some b)) :
    r.slots[slot]? = some (some b) ∧ ∀ index ∈ indexes, r.slotOf index ≠ slot := by
  induction indexes generalizing r with
  | nil => exact ⟨h, List.forall_mem_nil _⟩
  | cons index indexes ih =>
    obtain ⟨hstored, hothers⟩ := ih (r := r.setSlot index none) h
    have hslots : (r.setSlot index none).slots =
      r.slots.setIfInBounds (r.slotOf index) none := rfl
    rw [hslots, Array.getElem?_setIfInBounds] at hstored
    split at hstored
    · split at hstored <;> cases hstored
    · rename_i hne
      exact ⟨hstored, List.forall_mem_cons.mpr ⟨hne, hothers⟩⟩

end Lockstep.Registry
