set_option autoImplicit false

/-!
# Scan kinds

What a scan reads.  Two scans can be served by one cursor only when their
kinds are equal.
-/

namespace Lockstep

/-- What a scan reads: every node, or the nodes with a label. -/
inductive ScanKind where
  | allNodes
  | label (name : String)
  deriving DecidableEq, Repr, Inhabited

/-- The kind in words. -/
def ScanKind.text : ScanKind → String
  | .allNodes => "all-nodes"
  | .label name => "label(" ++ name ++ ")"

/-- The kind of a query with this label, or without one. -/
def ScanKind.ofLabel : Option String → ScanKind
  | none => .allNodes
  | some name => .label name

end Lockstep
