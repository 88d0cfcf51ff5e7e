import Lockstep.Proofs.Registry.Lookup
import Mathlib.Algebra.GroupWithZero.Nat
import Mathlib.Data.List.Nodup
import Mathlib.Data.List.Perm.Basic
set_option autoImplicit false

/-!
# The ring is a map

What a registry is for can be said without slots: a finite map from indexes to
batches, and the index that comes next.  The ring answers every request as this
map does.  Indexes that share a slot are never both in the window, an index that
has left the window never comes back, and compaction only passes over indexes
that the map does not have.
-/

namespace Lockstep

/-- Batches by index, and the index that the next one gets. -/
structure IndexMap where
  next : Nat := 0
  /-- what is in the map, by index -/
  entries : List (Nat × Batch) := []
  /-- the indexes increase -/
  ordered : entries.Pairwise (·.1 < ·.1) := by exact .nil
  /-- every index was given out -/
  given : ∀ entry ∈ entries, entry.1 < next := by exact List.forall_mem_nil _

namespace IndexMap

/-- The batch of an index. -/
def get? (m : IndexMap) (index : Nat) : Option Batch :=
  (m.entries.find? fun entry => entry.1 == index).map (·.2)

/-- Give the next index to a batch. -/
def insert (m : IndexMap) (b : Batch) : IndexMap where
  next := m.next + 1
  entries := m.entries ++ [(m.next, b)]
  ordered := List.pairwise_append.mpr
      ⟨m.ordered, List.pairwise_singleton _ _, fun entry hentry =>
    List.forall_mem_singleton.mpr (m.given entry hentry)⟩
  given := List.forall_mem_append.mpr
    ⟨fun entry hentry => Nat.lt_succ_of_lt (m.given entry hentry),
    List.forall_mem_singleton.mpr (Nat.lt_succ_self _)⟩

/-- Take an index out. -/
def erase (m : IndexMap) (index : Nat) : IndexMap where
  next := m.next
  entries := m.entries.filter fun entry => entry.1 != index
  ordered := m.ordered.filter _
  given := fun entry hentry => m.given entry (List.mem_filter.mp hentry).1

/-- Take everything out; the indexes that were given out stay so. -/
def clear (m : IndexMap) : IndexMap where
  next := m.next

/-- The least index in the map, or the next one if there is none. -/
def oldest (m : IndexMap) : Nat := ((m.entries.map (·.1)).min?).getD m.next

/-- How many operations the batches of the map have. -/
def operations (m : IndexMap) : Nat := (m.entries.map fun entry => entry.2.size).sum

variable {m m' : IndexMap} {index other : Nat} {b : Batch}

theorem nodup_indexes (m : IndexMap) : (m.entries.map (·.1)).Nodup :=
  List.pairwise_map.mpr (m.ordered.imp Nat.ne_of_lt)

/-- What is in the map is what look-ups find. -/
theorem mem_entries_iff : (index, b) ∈ m.entries ↔ m.get? index = some b := by
  unfold get?
  constructor
  · intro h
    cases hfound : m.entries.find? fun entry => entry.1 == index with
    | none => simpa using List.find?_eq_none.mp hfound _ h
    | some entry =>
      have hindex : entry.1 = index := by simpa using List.find?_some hfound
      have hsame : entry = (index, b) :=
        List.inj_on_of_nodup_map m.nodup_indexes
          (List.mem_of_find?_eq_some hfound) h hindex
      rw [hsame]
      rfl
  · intro h
    obtain ⟨entry, hfound, rfl⟩ := Option.map_eq_some_iff.mp h
    have hindex : entry.1 = index := by simpa using List.find?_some hfound
    rw [← hindex]
    exact List.mem_of_find?_eq_some hfound

theorem lt_next_of_get? (h : m.get? index = some b) : index < m.next :=
  m.given _ (mem_entries_iff.mpr h)

theorem get?_insert (m : IndexMap) (b : Batch) (index : Nat) :
    (m.insert b).get? index = if index = m.next then some b else m.get? index := by
  refine Option.ext fun b' => ?_
  rw [← mem_entries_iff, insert, List.mem_append, List.mem_singleton, Prod.mk.injEq,
    mem_entries_iff]
  split
  · rename_i hnext
    subst hnext
    have hnone : m.get? m.next ≠ some b' := fun h => Nat.lt_irrefl _ (lt_next_of_get? h)
    simp [hnone, eq_comm]
  · rename_i hne
    simp [hne]

theorem get?_erase (m : IndexMap) (index other : Nat) :
    (m.erase index).get? other = if other = index then none else m.get? other := by
  refine Option.ext fun b' => ?_
  rw [← mem_entries_iff, erase, List.mem_filter, mem_entries_iff, bne_iff_ne]
  split <;> simp_all

/-- Maps with the same look-ups and the same next index are the same: their
entries are in order. -/
theorem ext_get? (next : m.next = m'.next) (h : ∀ index, m.get? index = m'.get? index) :
    m = m' := by
  have hperm : m.entries.Perm m'.entries := by
    refine (List.perm_ext_iff_of_nodup m.nodup_indexes.of_map
      m'.nodup_indexes.of_map).mpr ?_
    rintro ⟨index, b⟩
    rw [mem_entries_iff, mem_entries_iff, h]
  have hentries : m.entries = m'.entries :=
    hperm.eq_of_pairwise (fun _ _ _ _ h h' => absurd h' (Nat.lt_asymm h)) m.ordered m'.ordered
  cases m
  cases m'
  subst next hentries
  rfl

theorem erase_eq_self (h : m.get? index = none) : m.erase index = m := by
  refine ext_get? rfl fun other => ?_
  rw [get?_erase]
  split
  · rename_i hsame
    rw [hsame, h]
  · rfl

/-- An index that is taken out leaves the other entries. -/
theorem perm_erase (h : m.get? index = some b) :
    m.entries.Perm ((index, b) :: (m.erase index).entries) := by
  have happart : (index, b) ∉ (m.erase index).entries := by
    rw [mem_entries_iff, get?_erase, if_pos rfl]
    exact Option.some_ne_none b |>.symm
  refine (List.perm_ext_iff_of_nodup m.nodup_indexes.of_map
    (List.nodup_cons.mpr ⟨happart, (m.erase index).nodup_indexes.of_map⟩)).mpr ?_
  rintro ⟨other, b'⟩
  rw [List.mem_cons, mem_entries_iff, mem_entries_iff, get?_erase, Prod.mk.injEq]
  split
  · rename_i hsame
    subst hsame
    simp [h, eq_comm]
  · rename_i hne
    simp [hne]

/-- The least index is the one that has a batch and that no smaller index has. -/
theorem oldest_eq (h : (m.get? index).isSome)
    (least : ∀ other < index, m.get? other = none) :
    m.oldest = index := by
  obtain ⟨b, hb⟩ := Option.isSome_iff_exists.mp h
  have hmin : (m.entries.map (·.1)).min? = some index := by
    refine List.min?_eq_some_iff.mpr
      ⟨List.mem_map.mpr ⟨(index, b), mem_entries_iff.mpr hb, rfl⟩,
        fun other hother => ?_⟩
    obtain ⟨⟨other, b'⟩, hentry, rfl⟩ := List.mem_map.mp hother
    refine Nat.le_of_not_lt fun hless => ?_
    rw [mem_entries_iff, least other hless] at hentry
    cases hentry
  unfold oldest
  rw [hmin]
  rfl

theorem oldest_eq_next (h : ∀ index, m.get? index = none) : m.oldest = m.next := by
  have hempty : m.entries = [] :=
      List.eq_nil_iff_forall_not_mem.mpr fun ⟨index, b⟩ hentry => by
    rw [mem_entries_iff, h index] at hentry
    cases hentry
  unfold oldest
  rw [hempty]
  rfl

end IndexMap

/-! ## Requests -/

/-- What is asked of a registry. -/
inductive Request where
  | insert (batch : Batch)
  | remove (index : Nat)
  | get (index : Nat)
  | drain

/-- What a registry replies. -/
inductive Reply where
  | inserted (index : Nat)
  /-- there is no room: the batch comes back -/
  | rejected (batch : Batch)
  | removed (batch : Option Batch)
  | found (batch : Option Batch)
  | drained (batches : List Batch)

namespace IndexMap

/-- What the map replies, if no more indexes than the capacity may lie between
the oldest and the next. -/
def answer (capacity : Nat) (m : IndexMap) : Request → Reply × IndexMap
  | .insert b =>
    if m.next - m.oldest = capacity then (.rejected b, m)
      else (.inserted m.next, m.insert b)
  | .remove index => (.removed (m.get? index), m.erase index)
  | .get index => (.found (m.get? index), m)
  | .drain => (.drained (m.entries.map (·.2)), m.clear)

/-- Reply to requests in order. -/
def answerAll (capacity : Nat) (m : IndexMap) : List Request → List Reply × IndexMap
  | [] => ([], m)
  | request :: requests =>
    let (replies, last) := answerAll capacity (m.answer capacity request).2 requests
    ((m.answer capacity request).1 :: replies, last)

end IndexMap

namespace Registry

/-- What the ring replies. -/
def answer (r : Registry) : Request → Reply × Registry
  | .insert b =>
    match r.insert? b with
    | some (index, r) => (.inserted index, r)
    | none => (.rejected b, r)
  | .remove index =>
    match r.remove? index with
    | some (b, r) => (.removed (some b), r)
    | none => (.removed none, r)
  | .get index => (.found (r.get? index), r)
  | .drain => (.drained r.drain.1, r.drain.2)

/-- Reply to requests in order. -/
def answerAll (r : Registry) : List Request → List Reply × Registry
  | [] => ([], r)
  | request :: requests =>
    let (replies, last) := answerAll (r.answer request).2 requests
    ((r.answer request).1 :: replies, last)

/-- The batches in all slots, slot by slot. -/
def held (r : Registry) : List Batch := r.slots.toList.filterMap id

/-- Whether every taken slot is that of an index of the window. -/
def Tidy (r : Registry) : Prop :=
  ∀ slot b, r.slots[slot]? = some (some b) → ∃ index,
    r.inWindow index = true ∧ r.slotOf index = slot

variable {r r' : Registry} {index : Nat} {b : Batch}

/-! ## The map of a ring -/

theorem mem_window_iff : index ∈ r.window ↔ r.inWindow index = true := by
  unfold window
  rw [inWindow_iff, List.mem_map]
  constructor
  · rintro ⟨offset, hoffset, rfl⟩
    have hlt := List.mem_range.mp hoffset
    omega
  · rintro ⟨hge, hlt⟩
    exact ⟨index - r.oldest, List.mem_range.mpr (by omega), by omega⟩

theorem pairwise_window (r : Registry) : r.window.Pairwise (· < ·) :=
  List.pairwise_map.mpr (List.pairwise_lt_range.imp fun h => Nat.add_lt_add_left h _)

/-- What the window holds is what look-ups find. -/
theorem mem_entries_iff : (index, b) ∈ r.entries ↔ r.get? index = some b := by
  unfold entries
  rw [List.mem_filterMap]
  constructor
  · rintro ⟨other, hother, hentry⟩
    obtain ⟨b', hslot, hsame⟩ := Option.map_eq_some_iff.mp hentry
    obtain ⟨rfl, rfl⟩ := Prod.mk.inj hsame
    rw [get?_of_inWindow (mem_window_iff.mp hother), hslot]
  · intro h
    have hwindow := inWindow_of_get? h
    rw [get?_of_inWindow hwindow] at h
    exact ⟨index, mem_window_iff.mpr hwindow, by rw [h]; rfl⟩

/-- The map that a ring stands for. -/
def toMap (r : Registry) : IndexMap where
  next := r.newest
  entries := r.entries
  ordered := by
    refine List.pairwise_filterMap.mpr (r.pairwise_window.imp fun hless => ?_)
    intro entry hentry entry' hentry'
    obtain ⟨_, _, rfl⟩ := Option.map_eq_some_iff.mp hentry
    obtain ⟨_, _, rfl⟩ := Option.map_eq_some_iff.mp hentry'
    exact hless
  given := by
    rintro ⟨index, b⟩ hentry
    exact lt_newest_of_get? (mem_entries_iff.mp hentry)

@[simp] theorem get?_toMap (r : Registry) (index : Nat) :
    r.toMap.get? index = r.get? index :=
  Option.ext fun _ => IndexMap.mem_entries_iff.symm.trans mem_entries_iff

theorem batches_eq_entries (r : Registry) : r.batches = r.entries.map (·.2) := by
  unfold batches entries
  rw [List.map_filterMap]
  refine List.filterMap_congr fun index _ => ?_
  cases r.inSlot index <;> rfl

theorem operations_toMap (r : Registry) : r.toMap.operations = r.operations := by
  unfold IndexMap.operations operations
  rw [batches_eq_entries, List.map_map]
  rfl

theorem get?_of_window_empty (h : r.oldest = r.newest) (index : Nat) :
    r.get? index = none := by
  refine get?_of_not_inWindow ?_
  rw [Bool.eq_false_iff, ne_eq, inWindow_iff]
  omega

/-! ## Compaction -/

theorem firstTaken_cases (r : Registry) (index count : Nat) :
    r.firstTaken index count = index + count ∨
      (r.inSlot (r.firstTaken index count)).isSome := by
  induction count generalizing index with
  | zero => exact .inl rfl
  | succ count ih =>
    unfold firstTaken
    split
    · rename_i htaken
      exact .inr htaken
    · rw [← Nat.add_assoc, Nat.add_right_comm]
      exact ih (index + 1)

theorem compacted_compact (h : r.oldest ≤ r.newest) :
    r.compact.oldest = r.compact.newest ∨ (r.compact.get? r.compact.oldest).isSome := by
  have hbounds := oldest_compact h
  have hcases := r.firstTaken_cases r.oldest (r.newest - r.oldest)
  rcases Nat.eq_or_lt_of_le hbounds.2 with hend | hless
  · exact .inl hend
  · refine .inr ?_
    rw [get?_of_inWindow (inWindow_iff.mpr ⟨Nat.le_refl _, hless⟩)]
    refine hcases.resolve_left fun hend => ?_
    have hlast : r.compact.oldest = r.oldest + (r.newest - r.oldest) := hend
    omega

theorem Tidy.compact (h : r.Tidy) : r.compact.Tidy := by
  intro slot b hstored
  obtain ⟨index, hwindow, hslot⟩ := h slot b hstored
  obtain ⟨hge, hlt⟩ := inWindow_iff.mp hwindow
  refine ⟨index, inWindow_iff.mpr ⟨Nat.le_of_not_lt fun hpassed => ?_, hlt⟩, hslot⟩
  have hempty := inSlot_of_lt_firstTaken hge hpassed
  unfold inSlot at hempty
  rw [hslot, Array.getD_eq_getD_getElem?, show r.slots[slot]? = some (some b) from
    hstored] at hempty
  cases hempty

theorem Tidy.setSlot_none (h : r.Tidy) (index : Nat) : (r.setSlot index none).Tidy := by
  intro slot b hstored
  have hslots : (r.setSlot index none).slots =
    r.slots.setIfInBounds (r.slotOf index) none := rfl
  rw [hslots, Array.getElem?_setIfInBounds] at hstored
  split at hstored
  · split at hstored <;> cases hstored
  · exact h slot b hstored

/-- What every request keeps up. -/
structure WellKept (r : Registry) : Prop where
  sound : r.Sound
  /-- the window starts at a live index, or is empty -/
  compacted : r.oldest = r.newest ∨ (r.get? r.oldest).isSome
  live : r.live = r.entries.length
  tidy : r.Tidy

namespace WellKept

theorem oldest_toMap (h : r.WellKept) : r.toMap.oldest = r.oldest := by
  have hnone : ∀ index < r.oldest, r.toMap.get? index = none := by
    intro index hless
    rw [get?_toMap, get?_of_not_inWindow]
    rw [Bool.eq_false_iff, ne_eq, inWindow_iff]
    omega
  rcases h.compacted with hempty | hlive
  · rw [hempty]
    exact IndexMap.oldest_eq_next fun index => (r.get?_toMap index).trans
      (get?_of_window_empty hempty index)
  · exact IndexMap.oldest_eq (by rwa [get?_toMap]) hnone

/-- The ring is full exactly if its indexes span the capacity. -/
theorem isFull_iff (h : r.WellKept) :
    r.isFull = true ↔ r.newest - r.oldest = r.capacity := by
  have hfits := h.sound.fits
  unfold isFull
  rw [decide_eq_true_eq]
  omega

/-- Going through the slots finds the live batches, in some order. -/
theorem perm_held (h : r.WellKept) : r.batches.Perm r.held := by
  let content : Nat → Option Batch := fun slot => r.slots.getD slot none
  have hslots : r.slots.toList = (List.range r.slots.size).map content := by
    refine List.ext_getElem (by simp) fun slot hslot _ => ?_
    have hsize : slot < r.slots.size := by simpa using hslot
    simp [content, hsize]
  have hheld : r.held = (List.range r.slots.size).filterMap content := by
    unfold held
    rw [hslots, List.filterMap_map]
    rfl
  have hbatches : r.batches = (r.window.map r.slotOf).filterMap content := by
    rw [List.filterMap_map]
    rfl
  have htaken : (r.window.map r.slotOf).Nodup := by
    refine (r.pairwise_window.imp_of_mem
      fun {index other} hindex hother hless => ?_).map _ fun _ _ hne => hne
    exact slotOf_ne_of_inWindow h.sound (mem_window_iff.mp hindex)
      (mem_window_iff.mp hother) (Nat.ne_of_gt hless)
  have hinside : ((List.range r.slots.size).filter (· ∈ r.window.map r.slotOf)).Perm
      (r.window.map r.slotOf) := by
    refine (List.perm_ext_iff_of_nodup (List.nodup_range.filter _) htaken).mpr
      fun slot => ?_
    rw [List.mem_filter, List.mem_range, decide_eq_true_eq, and_iff_right_iff_imp]
    rintro hslot
    obtain ⟨index, -, rfl⟩ := List.mem_map.mp hslot
    exact h.sound.size ▸ Nat.mod_lt index h.sound.capacity
  -- the slots outside the window are empty
  have houtside : ((List.range r.slots.size).filter fun slot =>
      !decide (slot ∈ r.window.map r.slotOf)).filterMap content = [] := by
    refine List.filterMap_eq_nil_iff.mpr fun slot hslot => ?_
    obtain ⟨hrange, hfree⟩ := List.mem_filter.mp hslot
    have hsize := List.mem_range.mp hrange
    cases hcontent : content slot with
    | none => rfl
    | some b =>
      have hstored : r.slots[slot]? = some (some b) := by
        simpa [content, hsize] using hcontent
      obtain ⟨index, hwindow, rfl⟩ := h.tidy slot b hstored
      rw [decide_eq_true (List.mem_map_of_mem (mem_window_iff.mpr hwindow))] at hfree
      cases hfree
  have hall :=
    (List.filter_append_perm (· ∈ r.window.map r.slotOf)
      (List.range r.slots.size)).filterMap
    content
  rw [List.filterMap_append, houtside, List.append_nil] at hall
  rw [hheld, hbatches]
  exact (hinside.filterMap content).symm.trans hall

end WellKept

theorem wellKept_ofCapacity (capacity : Nat) : (ofCapacity capacity).WellKept where
  sound := sound_ofCapacity capacity
  compacted := .inl rfl
  live := rfl
  tidy := by
    intro slot b h
    obtain ⟨_, hslot⟩ := Array.getElem?_eq_some_iff.mp h
    simp [ofCapacity] at hslot

/-! ## Requests to the ring -/

namespace WellKept

/-- An inserted batch is one more entry, behind all others. -/
theorem insert (h : r.WellKept) (inserted : r.insert? b = some (index, r')) :
    index = r.toMap.next ∧ r'.WellKept ∧ r'.capacity = r.capacity ∧
      r'.toMap = r.toMap.insert b := by
  obtain ⟨hindex, hnewest, hself, hothers⟩ := get?_of_insert? h.sound inserted
  have hsound := (batches_insert? h.sound inserted).1
  have hmap : r'.toMap = r.toMap.insert b := by
    refine IndexMap.ext_get? hnewest fun other => ?_
    rw [get?_toMap, IndexMap.get?_insert, get?_toMap]
    split
    · rename_i hnext
      rw [hnext.trans hindex.symm]
      exact hself
    · rename_i hne
      exact hothers other (hindex ▸ hne)
  have hentries : r'.entries = r.entries ++ [(r.newest, b)] :=
    congrArg IndexMap.entries hmap
  unfold insert? at inserted
  split at inserted
  · cases inserted
  · obtain ⟨rfl, hgrown⟩ := Prod.mk.inj (Option.some.inj inserted)
    have hcapacity : r'.capacity = r.capacity := hgrown ▸ rfl
    have holdest : r'.oldest = r.oldest := hgrown ▸ rfl
    have hlive : r'.live = r.live + 1 := hgrown ▸ rfl
    have hslots : r'.slots = r.slots.setIfInBounds (r.slotOf r.newest) (some b) :=
      hgrown ▸ rfl
    have hslotOf : r'.slotOf = r.slotOf := hgrown ▸ rfl
    refine ⟨rfl, ⟨hsound, .inr ?_, ?_, ?_⟩, hcapacity, hmap⟩
    · rw [holdest]
      rcases h.compacted with hempty | hoccupied
      · rw [hempty, hself]
        rfl
      · rw [hothers r.oldest (Nat.ne_of_lt ?_)]
        · exact hoccupied
        · obtain ⟨_, hfound⟩ := Option.isSome_iff_exists.mp hoccupied
          exact lt_newest_of_get? hfound
    · rw [hlive, hentries, List.length_append, h.live]
      rfl
    · intro slot b' hstored
      rw [hslots, Array.getElem?_setIfInBounds] at hstored
      split at hstored
      · rename_i hslot
        refine ⟨r.newest, inWindow_iff.mpr ⟨?_, ?_⟩, hslotOf ▸ hslot⟩
        · rw [holdest]
          exact h.sound.ordered
        · omega
      · obtain ⟨other, hwindow, hslot⟩ := h.tidy slot b' hstored
        obtain ⟨hge, hlt⟩ := inWindow_iff.mp hwindow
        exact ⟨other, inWindow_iff.mpr ⟨holdest ▸ hge, by omega⟩, hslotOf ▸ hslot⟩

/-- A batch that was put back in its place is an entry as before. -/
theorem replace (h : r.WellKept) (hlive : r.get? index = some b) (b' : Batch) :
    (r.replace index b').WellKept where
  sound := h.sound.replace index b'
  compacted := by
    rw [oldest_replace, newest_replace]
    refine h.compacted.imp_right fun hoccupied => ?_
    by_cases hsame : r.oldest = index
    · rw [hsame, get?_replace_self h.sound hlive]
      rfl
    · rwa [get?_replace_of_ne h.sound hlive hsame]
  live := by
    have hcount : (r.replace index b').batches.length = r.batches.length := by
      rw [replace_of_get? hlive, batches_setSlot h.sound (inWindow_of_get? hlive),
        batches_of_get? hlive]
      simp
    rw [batches_eq_entries, batches_eq_entries, List.length_map, List.length_map,
      ← h.live] at hcount
    rw [hcount, replace_of_get? hlive]
    rfl
  tidy := by
    intro slot b'' hstored
    rw [replace_of_get? hlive] at hstored ⊢
    have hslots : (r.setSlot index (some b')).slots =
      r.slots.setIfInBounds (r.slotOf index) (some b') := rfl
    rw [hslots, Array.getElem?_setIfInBounds] at hstored
    split at hstored
    · rename_i hslot
      exact ⟨index, (inWindow_of_get? hlive : r.inWindow index = true), hslot⟩
    · exact h.tidy slot b'' hstored

/-- A removal takes one entry out. -/
theorem remove (h : r.WellKept) (removed : r.remove? index = some (b, r')) :
    r.get? index = some b ∧ r'.WellKept ∧ r'.capacity = r.capacity ∧
      r'.toMap = r.toMap.erase index := by
  obtain ⟨hfound, hsound, hnewest, hself, hothers⟩ := get?_of_remove? h.sound removed
  have hmap : r'.toMap = r.toMap.erase index := by
    refine IndexMap.ext_get? hnewest fun other => ?_
    rw [get?_toMap, IndexMap.get?_erase, get?_toMap]
    split
    · rename_i hsame
      exact hsame ▸ hself
    · rename_i hne
      exact hothers other hne
  have hentries : r'.entries = (r.toMap.erase index).entries :=
    congrArg IndexMap.entries hmap
  have hlength := (IndexMap.perm_erase ((r.get?_toMap index).trans hfound)).length_eq
  unfold remove? at removed
  rw [hfound] at removed
  obtain ⟨-, rfl⟩ := Prod.mk.inj (Option.some.inj removed)
  refine ⟨hfound, ⟨hsound, compacted_compact h.sound.ordered, ?_, ?_⟩, rfl, hmap⟩
  · rw [hentries]
    have hlive : r.live = r.toMap.entries.length := h.live
    show r.live - 1 = _
    rw [hlive, hlength]
    rfl
  · exact Tidy.compact (r := { r.setSlot index none with live := r.live - 1 })
      (h.tidy.setSlot_none index)

/-- A drain takes every entry out. -/
theorem drain (h : r.WellKept) :
    r.drain.2.WellKept ∧ r.drain.2.capacity = r.capacity ∧
      r.drain.2.toMap = r.toMap.clear := by
  have hmap : r.drain.2.toMap = r.toMap.clear := by
    refine IndexMap.ext_get? rfl fun index => ?_
    rw [get?_toMap, get?_of_window_empty rfl]
    rfl
  have hentries : r.drain.2.entries = [] := congrArg IndexMap.entries hmap
  refine ⟨⟨(batches_drain h.sound).2.1, .inl rfl, ?_, ?_⟩, rfl, hmap⟩
  · rw [hentries]
    rfl
  · intro slot b hstored
    obtain ⟨_, hslot⟩ := Array.getElem?_eq_some_iff.mp hstored
    simp [Registry.drain] at hslot

/-- Clearing all slots at once is taking those of the window one after another. -/
theorem drain_eq_drainEach (h : r.WellKept) : r.drain = r.drainEach := by
  obtain ⟨hsame, hsize⟩ := r.takeEach_same r.window
  have hordered := h.sound.ordered
  have hfits := h.sound.fits
  have hwindow : r.window = List.range' r.oldest (r.newest - r.oldest) :=
    List.range'_eq_map_range.symm
  have htaken : (r.takeEach r.window).1 = r.batches := by
    rw [hwindow, taken_takeEach h.sound (by omega), batches_eq_span]
  have hslots : (r.takeEach r.window).2.slots = Array.replicate r.slots.size none := by
    refine Array.ext (hsize.trans Array.size_replicate.symm) fun slot hslot _ => ?_
    rw [Array.getElem_replicate]
    cases hstored : (r.takeEach r.window).2.slots[slot] with
    | none => rfl
    | some b =>
      obtain ⟨hbefore, hnone⟩ :=
        slots_takeEach (Array.getElem?_eq_some_iff.mpr ⟨hslot, hstored⟩)
      obtain ⟨index, hindex, hsame⟩ := h.tidy slot b hbefore
      exact absurd hsame (hnone index (mem_window_iff.mpr hindex))
  unfold Registry.drain drainEach
  dsimp only
  rw [htaken, hsame, hslots]

/-- The ring replies to a request what its map replies, and goes on standing for it. -/
theorem answer (h : r.WellKept) (request : Request) :
    (r.answer request).1 = (r.toMap.answer r.capacity request).1 ∧
      (r.answer request).2.WellKept ∧ (r.answer request).2.capacity = r.capacity ∧
      (r.answer request).2.toMap = (r.toMap.answer r.capacity request).2 := by
  cases request with
  | insert b =>
    have hfull : r.insert? b = none ↔ r.toMap.next - r.toMap.oldest = r.capacity := by
      rw [insert?_eq_none_iff, h.isFull_iff, h.oldest_toMap]
      rfl
    unfold Registry.answer IndexMap.answer
    dsimp only
    cases hinsert : r.insert? b with
    | none =>
      rw [if_pos (hfull.mp hinsert)]
      exact ⟨rfl, h, rfl, rfl⟩
    | some inserted =>
      obtain ⟨hindex, hkept, hcapacity, hmap⟩ := h.insert hinsert
      have hroom : r.toMap.next - r.toMap.oldest ≠ r.capacity := fun hspan => by
        rw [hfull.mpr hspan] at hinsert
        cases hinsert
      rw [if_neg hroom]
      exact ⟨congrArg Reply.inserted hindex, hkept, hcapacity, hmap⟩
  | remove index =>
    unfold Registry.answer IndexMap.answer
    dsimp only
    cases hremove : r.remove? index with
    | none =>
      have hnone : r.get? index = none := Option.map_eq_none_iff.mp hremove
      have hmap := (r.get?_toMap index).trans hnone
      exact ⟨congrArg Reply.removed hmap.symm, h, rfl,
        (IndexMap.erase_eq_self hmap).symm⟩
    | some removed =>
      obtain ⟨hfound, hkept, hcapacity, hmap⟩ := h.remove hremove
      exact ⟨congrArg Reply.removed ((r.get?_toMap index).trans hfound).symm, hkept,
        hcapacity, hmap⟩
  | get index => exact ⟨congrArg Reply.found (r.get?_toMap index).symm, h, rfl, rfl⟩
  | drain => exact ⟨congrArg Reply.drained r.batches_eq_entries, h.drain⟩

/-- So does a run of requests. -/
theorem answerAll (h : r.WellKept) (requests : List Request) :
    (r.answerAll requests).1 = (r.toMap.answerAll r.capacity requests).1 ∧
      (r.answerAll requests).2.WellKept ∧ (r.answerAll requests).2.capacity = r.capacity ∧
      (r.answerAll requests).2.toMap = (r.toMap.answerAll r.capacity requests).2 := by
  induction requests generalizing r with
  | nil => exact ⟨rfl, h, rfl, rfl⟩
  | cons request requests ih =>
    obtain ⟨hreply, hkept, hcapacity, hmap⟩ := h.answer request
    obtain ⟨hreplies, hlast, hsame, hend⟩ := ih hkept
    rw [hcapacity, hmap] at hreplies hend
    exact ⟨congrArg₂ List.cons hreply hreplies, hlast, hsame.trans hcapacity, hend⟩

end WellKept

/-- A ring replies to every run of requests what a map from ever-growing indexes
to batches replies, and is in a state that shows this map: every look-up, the
entries in the order of their indexes, the number of batches and of operations,
the window from the least live index to the next one, and that there is no room
exactly if the window spans the capacity.  A capacity of zero counts as one. -/
theorem refines_indexMap (capacity : Nat) (requests : List Request) :
    let ring := (ofCapacity capacity).answerAll requests
    let map := IndexMap.answerAll (max capacity 1) {} requests
    let r := ring.2
    let m := map.2
    ring.1 = map.1 ∧ (∀ index, r.get? index = m.get? index) ∧ r.entries = m.entries ∧
      r.newest = m.next ∧ r.oldest = m.oldest ∧ r.oldest ≤ r.newest ∧
      r.newest - r.oldest ≤ max capacity 1 ∧ r.live = m.entries.length ∧
      r.operations = m.operations ∧ (r.held.map Batch.size).sum = m.operations ∧
      ∀ b, r.insert? b = none ↔ r.newest - r.oldest = max capacity 1 := by
  have hempty : (ofCapacity capacity).toMap = {} :=
      IndexMap.ext_get? rfl fun index => by
    rw [get?_toMap, get?_of_window_empty rfl]
    rfl
  obtain ⟨hreplies, hkept, hcapacity, hmap⟩ :=
    (wellKept_ofCapacity capacity).answerAll requests
  have hroom : (ofCapacity capacity).capacity = max capacity 1 := rfl
  rw [hempty, hroom] at hreplies hmap
  rw [hroom] at hcapacity
  intro ring map r m
  have hentries : r.entries = m.entries := congrArg IndexMap.entries hmap
  have hoperations : r.operations = m.operations :=
    r.operations_toMap.symm.trans (congrArg IndexMap.operations hmap)
  have hheld : (r.held.map Batch.size).sum = r.operations :=
    (hkept.perm_held.map Batch.size).sum_nat.symm
  have hfits : r.newest ≤ r.oldest + max capacity 1 := hcapacity ▸ hkept.sound.fits
  refine ⟨hreplies, ?_, hentries, congrArg IndexMap.next hmap, ?_,
    hkept.sound.ordered, ?_, ?_, hoperations, hheld.trans hoperations, ?_⟩
  · intro index
    rw [← r.get?_toMap]
    exact congrArg (IndexMap.get? · index) hmap
  · exact hkept.oldest_toMap.symm.trans (congrArg IndexMap.oldest hmap)
  · omega
  · rw [← hentries]
    exact hkept.live
  · intro b
    rw [insert?_eq_none_iff, hkept.isFull_iff, hcapacity]

/-- With room for two batches the third takes the slot of the first, whose index
stays without one. -/
example : ((ofCapacity 2).answerAll
    [.insert default, .insert default, .insert default, .remove 0, .insert default,
      .get 0]).1.map
      (fun reply => match reply with
        | .inserted index => some index
        | _ => none) = [some 0, some 1, none, none, some 2, none] := by
  decide

end Registry

end Lockstep
