import Lockstep.Pipeline.Failure
import Lockstep.Query.Basic
set_option autoImplicit false

/-!
# Links of an operator chain

A chain is a scan and the links through which every row of the scan passes, the
first link first.  A link takes one row and gives at most one, so a chain never
moves its scan by more than one row a step.

A step asks the last link first, and every link asks the one before it until the
scan is asked.  A limit that has no rows left is spent: asked, it answers with
the end, and the links before it and the scan are not asked any more.  A link
may also be an operator of an unknown kind that breaks off, when it is asked, on
a row or at the end.
-/

namespace Lockstep

/-- What the steps of one query have counted. -/
structure Counters where
  /-- steps asked for -/
  steps : Nat := 0
  /-- rows that the scan gave -/
  scanned : Nat := 0
  /-- rows that a filter rejected -/
  filtered : Nat := 0
  /-- rows that came out of the chain -/
  produced : Nat := 0
  deriving DecidableEq, Repr, Inhabited

/-- An operator that gives on what its input gives, unless it breaks off.
Whether it does may hang on all that the query has counted by then, its steps
among it, so it may break off for good or for a while. -/
structure Fault where
  /-- what it breaks off with when it is asked, before it asks its input -/
  asked : Counters → Option Interruption := fun _ => none
  /-- what it breaks off with on a row of its input -/
  row : Counters → Value → Option Interruption := fun _ _ => none
  /-- what it breaks off with at the end of its input -/
  ended : Counters → Option Interruption := fun _ => none
  deriving Inhabited

instance : Repr Fault := ⟨fun _ _ => "Fault"⟩

/-- A fault that breaks off on the first row that comes when `count` rows or
more have been scanned, and on all rows after it. -/
def Fault.afterRows (count : Nat) (i : Interruption) : Fault where
  row := fun c _ => if count ≤ c.scanned then some i else none

/-- A link of a chain. -/
inductive Link where
  /-- lets rows through that satisfy every predicate -/
  | filter (predicates : List Predicate)
  /-- makes an object of columns of each row -/
  | project (items : List Item)
  /-- lets `quota` rows through, `remaining` of them still to come -/
  | limit (quota remaining : Nat)
  | fault (fault : Fault)
  deriving Repr, Inhabited

/-- What a link makes of a row. -/
inductive Verdict where
  | row (row : Value)
  | rejected
  | interrupted (interruption : Interruption)
  deriving Repr, Inhabited

namespace Link

/-- A limit of so many rows. -/
def ofQuota (quota : Nat) : Link := .limit quota quota

/-- Whether the link is a limit that lets nothing more through. -/
def isSpent : Link → Bool
  | .limit _ 0 => true
  | _ => false

/-- What the link breaks off with when it is asked. -/
def asked (c : Counters) : Link → Option Interruption
  | .fault f => f.asked c
  | _ => none

/-- What the link breaks off with at the end of its input. -/
def ended (c : Counters) : Link → Option Interruption
  | .fault f => f.ended c
  | _ => none

/-- Give the link a row: what becomes of the row, and the link afterwards. -/
def apply (c : Counters) (row : Value) : Link → Verdict × Link
  | .filter ps => (if Predicate.allHold ps row then .row row else .rejected, .filter ps)
  | .project items => (.row (Item.shape items row), .project items)
  | .limit quota remaining => (.row row, .limit quota (remaining - 1))
  | .fault f => ((f.row c row).elim (.row row) .interrupted, .fault f)

/-- The link in words. -/
def describe : Link → String
  | .filter ps => "Filter[" ++ " AND ".intercalate (ps.map Predicate.describe) ++ "]"
  | .project items => "Projection[" ++ ", ".intercalate (items.map Item.column) ++ "]"
  | .limit quota _ => "Limit(" ++ toString quota ++ ")"
  | .fault _ => "Fault"

end Link

/-- Pass a row through links: what comes out, and the links afterwards.  A row
that a link rejects or breaks off on never reaches the later links. -/
def Link.pass (c : Counters) : Value → List Link → Verdict × List Link
  | row, [] => (.row row, [])
  | row, link :: links =>
    match link.apply c row with
    | (.row row, link) =>
      let (verdict, links) := pass c row links
      (verdict, link :: links)
    | (verdict, link) => (verdict, link :: links)

/-- Pass the end through links: the first of them that breaks off turns it into
an interruption. -/
def Link.close (c : Counters) (links : List Link) : Except Interruption Unit :=
  match links.findSome? (ended c) with
  | some i => .error i
  | none => .ok ()

/-- Ask the links, the last one first: what they answer, if they do so without
asking the scan. -/
def Link.ask (c : Counters) : List Link → Option (Except Interruption Unit)
  | [] => none
  | link :: links =>
    (ask c links).or
      (if link.isSpent then some (close c links) else (link.asked c).map .error)

/-- Why a limit is refused. -/
inductive LimitError where
  | negative (n : Int)
  | outOfRange (n : Number)
  | notInteger (value : Value)
  deriving Repr, Inhabited

/-- The complaint about a limit. -/
def LimitError.message : LimitError → String
  | .negative n => "limit must be non-negative, got " ++ toString n
  | .outOfRange n => "limit " ++ n.text ++ " is out of range"
  | .notInteger value => "limit must be an integer, got " ++ value.compact

/-- The failure that a refused limit is. -/
def LimitError.toFailure (e : LimitError) : Failure := ⟨.invalidLimit, e.message⟩

namespace Link

/-- A limit of `n` rows, which must not be negative. -/
def ofInt (n : Int) : Except LimitError Link :=
  if n < 0 then .error (.negative n) else .ok (ofQuota n.toNat)

/-- The limit that a literal gives: a signed 64-bit integer that is not negative. -/
def ofLiteral : Value → Except LimitError Link
  | .number n =>
    match n with
    | .int i => if n.asSigned?.isSome then ofInt i else .error (.outOfRange n)
    | .float _ => .error (.notInteger (.number n))
  | value => .error (.notInteger value)

end Link

end Lockstep
