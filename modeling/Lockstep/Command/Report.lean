import Lockstep.Command.Error
import Lockstep.Engine.Basic
set_option autoImplicit false

/-!
# Reports

What commands write: one JSON object a line.  After a run, every query gets a
line in the order of the queries: its outcome and how long it took, or the error
that kept it from being accepted.
-/

namespace Lockstep.Report

/-- The line of a result. -/
def response (data : Value) : Value :=
  .ofFields [("status", .string "ok"), ("data", data)]

/-- The line of an error. -/
def error (code message : String) : Value :=
  .ofFields [("status", .string "error"), ("code", .string code),
    ("message", .string message)]

/-- A line as it is written, with its line feed. -/
def written (line : Value) : String := line.compact ++ "\n"

/-- The line of a query that was not accepted. -/
def rejection (query : String) (reason : EngineError) : Value :=
  .ofFields [
    ("status", .string "rejected"),
    ("query", .string query),
    ("code", .string reason.code),
    ("message", .string reason.display)]

/-- How long an operation took, in microseconds; null if the ledger does not know. -/
def latency (e : Engine) (sequence : Nat) : Value :=
  match e.ledger.operationTime sequence with
  | .error _ => .null
  | .ok time => ((Calendar.microseconds? time).map Value.int).getD .null

/-- The line of an accepted query; it takes the outcome out of the engine. -/
def outcome (e : Engine) (sequence : Nat) : Value × Engine :=
  match e.takeOutcome sequence with
  | (none, e) =>
    (error CommandSubject.engine.code
      ("no outcome for operation " ++ toString sequence), e)
  | (some outcome, e) => (outcome.toValue [("latency_us", latency e sequence)], e)

/-- The lines of queries and what became of accepting them. -/
def outcomes (e : Engine) : List (String × Except EngineError Nat) → List Value × Engine
  | [] => ([], e)
  | (query, .error reason) :: others =>
    let (lines, e) := outcomes e others
    (rejection query reason :: lines, e)
  | (_, .ok sequence) :: others =>
    let (line, e) := outcome e sequence
    let (lines, e) := outcomes e others
    (line :: lines, e)

/-- The line of the metrics. -/
def metrics (e : Engine) : Value :=
  response (.ofFields [("metrics", e.metrics.toValue)])

end Lockstep.Report
