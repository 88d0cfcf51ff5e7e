import Lockstep.Pipeline.Link
import Lockstep.Scan.Table
import Lockstep.Text.Printable
set_option autoImplicit false

/-!
# Pipelines

A pipeline is one running query: a scan, the links behind it, the rows that came
out so far and what was counted on the way.  Each step moves the scan by at most
one row.  Once a step has found the end, every later step finds it again and
changes nothing.

A pipeline that has not been moved yet can be made to follow another of the same
kind: it is then fed by the other's cursor.
-/

namespace Lockstep

/-- A running query. -/
structure Pipeline where
  kind : ScanKind
  cursor : CursorId
  /-- whether the scan gives what the cursor gave last instead of moving it -/
  cached : Bool := false
  links : List Link
  counters : Counters := {}
  rows : Array Value := #[]
  finished : Bool := false
  deriving Repr, Inhabited

/-- What a step of a pipeline did. -/
inductive StepResult where
  /-- it added a row -/
  | produced
  /-- it added none, and the query goes on -/
  | pending
  /-- the query is at its end -/
  | finished
  deriving DecidableEq, Repr, Inhabited

namespace Pipeline

/-- Whether the pipeline was ever stepped. -/
def isStarted (p : Pipeline) : Bool := 0 < p.counters.steps

/-- Choose between cached reads and fresh pulls. -/
def setCached (p : Pipeline) (cached : Bool) : Pipeline := { p with cached := cached }

/-- Count a step. -/
def countStep (p : Pipeline) : Pipeline :=
  { p with counters := { p.counters with steps := p.counters.steps + 1 } }

/-- Note that the query is at its end. -/
def finish (p : Pipeline) : Pipeline := { p with finished := true }

/-- End a step that comes to no row: at the end, or because a link breaks off. -/
def conclude (p : Pipeline) :
    Except Interruption Unit → Except Interruption StepResult × Pipeline
  | .error i => (.error i, p)
  | .ok () => (.ok .finished, p.finish)

/-- Take a row that the scan gave and pass it through the links. -/
def receive (p : Pipeline) (row : Value) : Except Interruption StepResult × Pipeline :=
  let c := { p.counters with scanned := p.counters.scanned + 1 }
  let (verdict, links) := Link.pass c row p.links
  match verdict with
  | .row row =>
    (.ok .produced,
      { p with
        links := links
        counters := { c with produced := c.produced + 1 }
        rows := p.rows.push row })
  | .rejected =>
    (.ok .pending,
      { p with links := links, counters := { c with filtered := c.filtered + 1 } })
  | .interrupted i => (.error i, { p with links := links, counters := c })

/-- Take what the scan gave to the links that have asked it. -/
def accept (p : Pipeline) :
    Except Interruption Progress → Except Interruption StepResult × Pipeline
  | .error i => (.error i, p)
  | .ok .ended => p.conclude (Link.close p.counters p.links)
  | .ok .pending => (.ok .pending, p)
  | .ok (.row row) => p.receive row

/-- Step the query once. -/
def step (p : Pipeline) (s : Scans) :
    Except Interruption StepResult × Pipeline × Scans :=
  if p.finished then (.ok .finished, p, s)
  else
    let p := p.countStep
    match Link.ask p.counters p.links with
    | some answer =>
      let (result, p) := p.conclude answer
      (result, p, s)
    | none =>
      let (outcome, s) := s.read p.cursor p.cached
      let (result, p) := p.accept outcome
      (result, p, s)

/-- Feed the pipeline `follower` by the cursor of `leader`.  Their kinds have to
agree, and neither cursor may have been pulled, unless they are one already. -/
def follow (follower leader : Pipeline) (s : Scans) : Except Failure Pipeline :=
  if leader.kind ≠ follower.kind then
    .error (.incompatibleScan leader.kind.text follower.kind.text)
  else if follower.cursor = leader.cursor then .ok follower
  else if 0 < (s.cursor follower.cursor).pulls ∨ 0 < (s.cursor leader.cursor).pulls then
    .error (.incompatibleScan (leader.kind.text ++ " (already started)")
      (follower.kind.text ++ " (already started)"))
  else .ok { follower with cursor := leader.cursor }

/-- The operators in words, the last one first. -/
def describe (p : Pipeline) : String :=
  p.links.foldl (fun inner link => link.describe ++ " <- " ++ inner)
    ("NodeScan(" ++ p.kind.text ++ ")")

/-- How a character stands in a quoted description: quotes, backslashes and
every character that does not show as a sign of its own are escaped. -/
def escapeDescribed (c : Char) : List Char :=
  if c = '\\' ∨ c = '"' then ['\\', c]
  else if c = '\n' then ['\\', 'n']
  else if c = '\r' then ['\\', 'r']
  else if c = '\t' then ['\\', 't']
  else if c.toNat = 0 then ['\\', '0']
  else if Text.showsAlone c then [c]
  else ['\\', 'u', '\x7b'] ++ Nat.toDigits 16 c.toNat ++ ['\x7d']

/-- The pipeline in words. -/
def summary (p : Pipeline) : String :=
  "QueryPipeline \x7b plan: " ++
    String.ofList (Text.quoted escapeDescribed p.describe.toList) ++ ", rows: " ++
    toString p.rows.size ++ ", finished: " ++ toString p.finished ++ " \x7d"

end Pipeline

end Lockstep
