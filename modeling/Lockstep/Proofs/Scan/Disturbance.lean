import Lockstep.Proofs.Scan.Upcoming
set_option autoImplicit false

/-!
# Disturbances

Whoever owns the transaction may close it, open it again or make reads fail
while scans are open.  None of this changes the nodes, so every scan still has
the same rows to come.
-/

namespace Lockstep

/-- What can happen to the transaction that owns the graph. -/
inductive Disturbance where
  | close
  | reopen
  | inject (count : Nat)
  deriving DecidableEq, Repr, Inhabited

/-- The graph after a disturbance. -/
def Disturbance.apply (g : Graph) : Disturbance → Graph
  | .close => g.close
  | .reopen => g.reopen
  | .inject count => g.inject count

theorem Disturbance.nodes_apply (d : Disturbance) (g : Graph) :
    (d.apply g).nodes = g.nodes := by
  cases d <;> rfl

/-- The table over a disturbed graph. -/
def Scans.disturb (s : Scans) (d : Disturbance) : Scans :=
  { s with graph := d.apply s.graph }

theorem Scans.upcoming_disturb (id : CursorId) (s : Scans) (d : Disturbance) :
    (s.disturb d).upcoming id = s.upcoming id :=
  Cursor.upcoming_congr (d.nodes_apply s.graph) (s.cursor id)

end Lockstep
