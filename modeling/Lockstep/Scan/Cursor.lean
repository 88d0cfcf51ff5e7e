import Lockstep.Scan.Source
set_option autoImplicit false

/-!
# Cursors

A cursor is the position of a scan.  A fresh pull moves it by one row and
remembers what it gave; a cached read gives that again without moving.  A pull
that fails changes neither the position nor what is remembered nor the count of
pulls.  Once the source has been found exhausted it is not asked again.

A crash of the source during a pull breaks the cursor: every later pull or read of
it fails, while its count of pulls and whether it is exhausted can still be told.
-/

namespace Lockstep

/-- What the latest successful pull gave. -/
inductive Latest where
  /-- there was none yet -/
  | nothing
  | row (row : Value)
  | exhausted
  deriving Repr, Inhabited

/-- What a scan, or a chain over it, gives in one step. -/
inductive Progress where
  | row (row : Value)
  /-- no row this time -/
  | pending
  /-- no row any more -/
  | ended
  deriving Repr, Inhabited

/-- The position of a scan in its source. -/
structure Cursor where
  source : Source
  latest : Latest := .nothing
  /-- pulls that reached the source and succeeded, the one that found it
  exhausted included -/
  pulls : Nat := 0
  broken : Bool := false
  deriving Repr, Inhabited

namespace Cursor

/-- Whether the source was found exhausted. -/
def isExhausted (c : Cursor) : Bool :=
  match c.latest with
  | .exhausted => true
  | _ => false

/-- The failure of every use of a broken cursor. -/
def brokenFailure : Failure := ⟨.executionFailed, "scan cursor lock poisoned"⟩

/-- What a cached read gives. -/
def readCached (c : Cursor) : Except Interruption Progress :=
  if c.broken then .error (.failed brokenFailure)
  else match c.latest with
    | .nothing => .ok .pending
    | .row row => .ok (.row row)
    | .exhausted => .ok .ended

/-- Pull the next row. -/
def pull (c : Cursor) (g : Graph) : Except Interruption Progress × Cursor × Graph :=
  if c.broken then (.error (.failed brokenFailure), c, g)
  else if c.isExhausted then (.ok .ended, c, g)
  else
    let read := c.source.next g
    let c := { c with source := read.source }
    match read.outcome with
    | .error (.failed f) => (.error (.failed f), c, read.graph)
    | .error (.crashed crash) =>
      (.error (.crashed crash), { c with broken := true }, read.graph)
    | .ok (some row) =>
      (.ok (.row row), { c with latest := .row row, pulls := c.pulls + 1 }, read.graph)
    | .ok none =>
      (.ok .ended, { c with latest := .exhausted, pulls := c.pulls + 1 }, read.graph)

/-- The cursor in words. -/
def describe (c : Cursor) : String :=
  "SharedCursor \x7b pulls: " ++ toString c.pulls ++ ", exhausted: " ++
    toString c.isExhausted ++
    " \x7d"

theorem pull_of_isExhausted {c : Cursor} (sound : c.broken = false)
    (h : c.isExhausted = true) (g : Graph) : c.pull g = (.ok .ended, c, g) := by
  simp [pull, sound, h]

/-- A cached read gives what the pull before it gave. -/
theorem readCached_of_pull {c c' : Cursor} {g g' : Graph} {progress : Progress}
    (h : c.pull g = (.ok progress, c', g')) : c'.readCached = .ok progress := by
  unfold pull at h
  split at h
  · cases h
  · rename_i sound
    split at h
    · rename_i ended
      cases h
      unfold isExhausted at ended
      unfold readCached
      rw [if_neg sound]
      split at ended
      · rename_i latest
        rw [latest]
      · cases ended
    · simp only at h
      split at h <;> cases h
      · simp [readCached, sound]
      · simp [readCached, sound]

end Cursor

end Lockstep
