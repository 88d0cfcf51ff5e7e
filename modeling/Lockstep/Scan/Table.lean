import Lockstep.Scan.Cursor
set_option autoImplicit false

/-!
# The table of open scans

Several pipelines may be fed by one cursor, so cursors stand in a table and
pipelines name them by number.  The table also holds the graph, which every read
of it may change.
-/

namespace Lockstep

/-- The number of a cursor in the table. -/
abbrev CursorId := Nat

/-- The open scans and the graph behind them. -/
structure Scans where
  graph : Graph
  cursors : Array Cursor := #[]
  deriving Repr, Inhabited

namespace Scans

/-- A cursor; a number that was never given out names one without rows. -/
def cursor (s : Scans) (id : CursorId) : Cursor :=
  s.cursors.getD id ⟨.script [], .nothing, 0, false⟩

/-- Open a cursor at the start of a source. -/
def openCursor (s : Scans) (source : Source) : CursorId × Scans :=
  (s.cursors.size, { s with cursors := s.cursors.push { source := source } })

/-- Pull a cursor. -/
def pull (s : Scans) (id : CursorId) : Except Interruption Progress × Scans :=
  let (outcome, c, g) := (s.cursor id).pull s.graph
  (outcome, { graph := g, cursors := s.cursors.setIfInBounds id c })

/-- Take what a cursor gives, by a fresh pull or by a cached read. -/
def read (s : Scans) (id : CursorId) (cached : Bool) :
    Except Interruption Progress × Scans :=
  if cached then ((s.cursor id).readCached, s) else s.pull id

end Scans

end Lockstep
