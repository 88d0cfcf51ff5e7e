import Lockstep.Query.Predicate
import Lockstep.Scan.Kind
set_option autoImplicit false

/-!
# Queries

A query names one node pattern, restricts it by predicates, says which columns
to return and may limit their number.
-/

namespace Lockstep

/-- A returned column: the whole node, or one of its properties. -/
inductive Item where
  | node (binding : String)
  | property (binding name : String)
  deriving DecidableEq, Repr, Inhabited

namespace Item

/-- The name of the column. -/
def column : Item → String
  | .node binding => binding
  | .property binding name => binding ++ "." ++ name

/-- What a row holds in this column; a missing property is null. -/
def valueIn (row : Value) : Item → Value
  | .node _ => row
  | .property _ name => (row.get? name).getD .null

/-- The object that holds every column of a row. -/
def shape (items : List Item) (row : Value) : Value :=
  .ofFields (items.map fun item => (item.column, item.valueIn row))

end Item

/-- A query over one node pattern. -/
structure MatchQuery where
  /-- the name that the pattern gives to its node -/
  binding : String
  label : Option String
  predicates : List Predicate
  returns : List Item
  /-- the literal behind LIMIT, if there is one; it need not be a number -/
  limit : Option Value
  deriving Repr, Inhabited

/-- What the query scans. -/
def MatchQuery.scanKind (q : MatchQuery) : ScanKind := .ofLabel q.label

end Lockstep
