import Lockstep.Pipeline.Link
set_option autoImplicit false

/-!
# What a chain makes of a stream of rows

A chain works row by row and keeps the state of its limits between rows.  Seen
from outside it is a function on lists: a filter drops rows, a projection shapes
each of them, a limit cuts the list.  This module states that function and
proves that passing one row on is one step of it.
-/

namespace Lockstep.Link

/-- What a link makes of a list of rows.  A fault makes nothing of rows: it
only breaks off. -/
def image : Link → List Value → List Value
  | .filter ps, rows => rows.filter (Predicate.allHold ps)
  | .project items, rows => rows.map (Item.shape items)
  | .limit _ remaining, rows => rows.take remaining
  | .fault _, rows => rows

/-- What a chain makes of a list of rows, the first link first. -/
def yield : List Link → List Value → List Value
  | [], rows => rows
  | link :: links, rows => yield links (link.image rows)

/-- Whether the link is a fault. -/
def isFault : Link → Bool
  | .fault _ => true
  | _ => false

@[simp] theorem image_nil (link : Link) : link.image [] = [] := by
  cases link <;> simp [image]

@[simp] theorem yield_nil (links : List Link) : yield links [] = [] := by
  induction links with
  | nil => rfl
  | cons link links ih => rw [yield, image_nil, ih]

theorem yield_append (inner outer : List Link) (rows : List Value) :
    yield (inner ++ outer) rows = yield outer (yield inner rows) := by
  induction inner generalizing rows with
  | nil => rfl
  | cons link inner ih => rw [List.cons_append, yield, ih, yield]

/-! ## Spent chains -/

/-- A spent limit lets nothing through. -/
theorem image_of_isSpent {link : Link} (h : link.isSpent = true) (rows : List Value) :
    link.image rows = [] := by
  unfold isSpent at h
  split at h
  · exact rfl
  · cases h

/-- A chain with a spent limit yields nothing, wherever the limit stands. -/
theorem yield_of_isSpent {links : List Link} (h : links.any isSpent = true)
    (rows : List Value) :
    yield links rows = [] := by
  induction links generalizing rows with
  | nil => cases h
  | cons link links ih =>
    rw [List.any_cons, Bool.or_eq_true] at h
    cases h with
    | inl hlink => rw [yield, image_of_isSpent hlink, yield_nil]
    | inr hlinks => exact ih hlinks _

/-- Links that answer with the end when they are asked hold a spent limit. -/
theorem isSpent_of_ask {c : Counters} {links : List Link}
    (h : ask c links = some (.ok ())) :
    links.any isSpent = true := by
  induction links with
  | nil => cases h
  | cons link links ih =>
    rw [ask] at h
    rw [List.any_cons]
    cases hrest : ask c links with
    | some answer =>
      rw [hrest] at h ih
      rw [ih h, Bool.or_true]
    | none =>
      cases hspent : link.isSpent with
      | true => rfl
      | false =>
        rw [hrest, hspent] at h
        cases hasked : link.asked c <;> rw [hasked] at h <;> cases h

/-- Links that ask the scan hold none. -/
theorem unspent_of_ask {c : Counters} {links : List Link} (h : ask c links = none) :
    links.any isSpent = false := by
  induction links with
  | nil => rfl
  | cons link links ih =>
    rw [ask, Option.or_eq_none_iff] at h
    obtain ⟨hrest, hlink⟩ := h
    rw [List.any_cons, ih hrest, Bool.or_false]
    cases hspent : link.isSpent with
    | true =>
      rw [hspent] at hlink
      cases hlink
    | false => rfl

/-! ## One row -/

/-- A link that is not spent and lets a row through puts it in front of what it
makes of the rest. -/
theorem image_cons_of_apply {link link' : Link} {c : Counters} {row out : Value}
    (live : link.isSpent = false) (h : link.apply c row = (.row out, link'))
    (rest : List Value) : link.image (row :: rest) = out :: link'.image rest := by
  cases link with
  | filter ps =>
    simp only [apply, Prod.mk.injEq] at h
    obtain ⟨hverdict, rfl⟩ := h
    split at hverdict
    · rename_i hholds
      cases hverdict
      exact List.filter_cons_of_pos hholds
    · cases hverdict
  | project items =>
    cases h
    rfl
  | limit quota remaining =>
    cases h
    cases remaining with
    | zero => cases live
    | succ remaining => rfl
  | fault f =>
    simp only [apply, Prod.mk.injEq] at h
    obtain ⟨hverdict, rfl⟩ := h
    cases hrow : f.row c row with
    | some i =>
      rw [hrow] at hverdict
      cases hverdict
    | none =>
      rw [hrow] at hverdict
      cases hverdict
      rfl

/-- A link that rejects a row makes of the rows what it makes of the rest. -/
theorem image_cons_of_rejected {link link' : Link} {c : Counters} {row : Value}
    (h : link.apply c row = (.rejected, link')) (rest : List Value) :
    link.image (row :: rest) = link'.image rest := by
  cases link with
  | filter ps =>
    simp only [apply, Prod.mk.injEq] at h
    obtain ⟨hverdict, rfl⟩ := h
    split at hverdict
    · cases hverdict
    · rename_i hfails
      exact List.filter_cons_of_neg hfails
  | project items => cases h
  | limit quota remaining => cases h
  | fault f =>
    simp only [apply, Prod.mk.injEq] at h
    cases hrow : f.row c row <;> rw [hrow] at h <;> cases h.1

/-- Passing a row through a chain that is not spent splits off what the chain
yields of that row. -/
theorem yield_cons_of_pass {links links' : List Link} {c : Counters} {row out : Value}
    (live : links.any isSpent = false) (h : pass c row links = (.row out, links'))
    (rest : List Value) : yield links (row :: rest) = out :: yield links' rest := by
  induction links generalizing row links' rest with
  | nil =>
    cases h
    rfl
  | cons link links ih =>
    rw [List.any_cons, Bool.or_eq_false_iff] at live
    rw [pass] at h
    split at h
    · rename_i through link' happly
      obtain ⟨hverdict, rfl⟩ := Prod.mk.inj h
      rw [yield, image_cons_of_apply live.1 happly, yield]
      exact ih live.2 (Prod.ext hverdict rfl) _
    · rename_i verdict link' hnot happly
      obtain ⟨rfl, -⟩ := Prod.mk.inj h
      exact absurd rfl (hnot out)

/-- A row that a chain rejects adds nothing to what the chain yields. -/
theorem yield_cons_of_rejected {links links' : List Link} {c : Counters} {row : Value}
    (live : links.any isSpent = false) (h : pass c row links = (.rejected, links'))
    (rest : List Value) : yield links (row :: rest) = yield links' rest := by
  induction links generalizing row links' rest with
  | nil => cases h
  | cons link links ih =>
    rw [List.any_cons, Bool.or_eq_false_iff] at live
    rw [pass] at h
    split at h
    · rename_i through link' happly
      obtain ⟨hverdict, rfl⟩ := Prod.mk.inj h
      rw [yield, image_cons_of_apply live.1 happly, yield]
      exact ih live.2 (Prod.ext hverdict rfl) _
    · rename_i verdict link' hnot happly
      obtain ⟨rfl, rfl⟩ := Prod.mk.inj h
      rw [yield, image_cons_of_rejected happly, yield]

end Lockstep.Link
