import Lockstep.Pipeline.Failure
import Lockstep.Scan.Kind
import Lockstep.Value.Basic
set_option autoImplicit false

/-!
# The graph

Nodes are only ever appended, and a node's number is its position.  Reads go
through the transaction that owns the graph: while it is closed, or while
injected failures are pending, a read fails and nothing else happens, except
that a pending failure is used up.
-/

namespace Lockstep

/-- A node: its number, labels and properties. -/
structure Node where
  id : Nat
  labels : List String
  properties : Fields
  deriving Repr, Inhabited

namespace Node

/-- The field of a row that holds the number of its node. -/
def idKey : String := "_node_id"

/-- The field of a row that holds the labels of its node. -/
def labelsKey : String := "_labels"

/-- Whether the node carries a label. -/
def hasLabel (node : Node) (label : String) : Bool := node.labels.contains label

/-- Whether a scan of this kind reads the node. -/
def isIn (node : Node) : ScanKind → Bool
  | .allNodes => true
  | .label name => node.hasLabel name

/-- The row of a node: its properties, overlaid with its number and labels. -/
def toRow (node : Node) : Value :=
  .object (Fields.insert labelsKey (.array (node.labels.map .string))
    (Fields.insert idKey (.nat node.id) node.properties))

end Node

/-- A graph, and the state of the transaction that owns it. -/
structure Graph where
  nodes : Array Node := #[]
  isOpen : Bool := true
  /-- how many of the next reads fail -/
  pendingFailures : Nat := 0
  /-- the number of a node is its position -/
  numbered : ∀ (i : Nat) (h : i < nodes.size), nodes[i].id = i := by simp
  deriving Repr

instance : Inhabited Graph := ⟨{}⟩

namespace Graph

theorem numbered_push (g : Graph) (labels : List String) (properties : Fields) (i : Nat)
    (h : i < (g.nodes.push ⟨g.nodes.size, labels, properties⟩).size) :
    (g.nodes.push ⟨g.nodes.size, labels, properties⟩)[i].id = i := by
  rw [Array.getElem_push]
  split
  · exact g.numbered i _
  · rw [Array.size_push] at h
    dsimp only
    omega

/-- Append a node with the next free number. -/
def create (g : Graph) (labels : List String) (properties : Fields) : Graph :=
  { g with
    nodes := g.nodes.push ⟨g.nodes.size, labels, properties⟩
    numbered := g.numbered_push labels properties }

/-- A graph of nodes given by labels and properties, numbered in order. -/
def ofNodes (nodes : List (List String × Fields)) : Graph :=
  nodes.foldl (fun g node => g.create node.1 node.2) {}

/-- Close the transaction: reads fail until it is opened again. -/
def close (g : Graph) : Graph := { g with isOpen := false }

/-- Open the transaction again. -/
def reopen (g : Graph) : Graph := { g with isOpen := true }

/-- Make the next `count` reads of the open graph fail. -/
def inject (g : Graph) (count : Nat) : Graph := { g with pendingFailures := count }

/-- Why a read fails now, if it does. -/
def obstacle? (g : Graph) : Option Failure :=
  if !g.isOpen then some ⟨.transactionUnavailable, "owning transaction is closed"⟩
  else if 0 < g.pendingFailures then
    some ⟨.transactionUnavailable, "transaction temporarily unavailable"⟩
  else none

/-- The graph after a read was attempted: a pending failure is used up if
the graph is open. -/
def afterRead (g : Graph) : Graph :=
  if g.isOpen then { g with pendingFailures := g.pendingFailures - 1 } else g

/-- The first node of a kind at a position or later. -/
def findFrom? (g : Graph) (kind : ScanKind) (position : Nat) : Option Node :=
  if h : position < g.nodes.size then
    if g.nodes[position].isIn kind then some g.nodes[position]
    else g.findFrom? kind (position + 1)
  else none
  termination_by g.nodes.size - position

@[simp]
theorem nodes_afterRead (g : Graph) : g.afterRead.nodes = g.nodes := by
  unfold afterRead
  split <;> rfl

end Graph

end Lockstep
