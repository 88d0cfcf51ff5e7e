import Lockstep.Graph.Basic
set_option autoImplicit false

/-!
# Sources of rows

What stands behind a scan: the graph from some position on, or a script that says
in advance what each read gives.  A read of the graph that fails leaves the
position where it is; a script moves on to its next entry whatever the read gives.
-/

namespace Lockstep

/-- What one read of a script gives. -/
inductive ScriptEntry where
  | row (row : Value)
  | interruption (interruption : Interruption)
  | ending
  deriving Repr, Inhabited

/-- Where the rows of a scan come from. -/
inductive Source where
  /-- the nodes of a kind from a position on -/
  | graph (kind : ScanKind) (position : Nat)
  /-- prepared answers, one for each read; after the last the source is exhausted -/
  | script (entries : List ScriptEntry)
  deriving Repr, Inhabited

/-- What a read gave, and the source and the graph after it. -/
structure ReadResult where
  outcome : Except Interruption (Option Value)
  source : Source
  graph : Graph

namespace Source

/-- Read the next row; none stands for an exhausted source. -/
def next (g : Graph) : Source → ReadResult
  | .graph kind position =>
    match g.obstacle? with
    | some failure => ⟨.error (.failed failure), .graph kind position, g.afterRead⟩
    | none =>
      match g.findFrom? kind position with
      | some node => ⟨.ok (some node.toRow), .graph kind (node.id + 1), g⟩
      | none => ⟨.ok none, .graph kind g.nodes.size, g⟩
  | .script [] => ⟨.ok none, .script [], g⟩
  | .script (.row row :: rest) => ⟨.ok (some row), .script rest, g⟩
  | .script (.interruption i :: rest) => ⟨.error i, .script rest, g⟩
  | .script (.ending :: rest) => ⟨.ok none, .script rest, g⟩

end Source

end Lockstep
