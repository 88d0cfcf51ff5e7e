set_option autoImplicit false

/-!
# Severities

How serious a logged event is.  Severities are ordered by `rank`; a log with a
least severity drops what lies below it.
-/

namespace Lockstep

/-- How serious an event is. -/
inductive Severity where
  /-- detail of single operations -/
  | trace
  /-- normal running -/
  | info
  /-- trouble that is recovered from -/
  | warn
  /-- failures -/
  | error
  /-- nothing can go on -/
  | fatal
  deriving DecidableEq, Repr, Inhabited

namespace Severity

/-- The name written in log lines. -/
def name : Severity → String
  | .trace => "TRACE"
  | .info => "INFO"
  | .warn => "WARN"
  | .error => "ERROR"
  | .fatal => "FATAL"

/-- Position in the order of severities, the least serious first. -/
def rank : Severity → Nat
  | .trace => 0
  | .info => 1
  | .warn => 2
  | .error => 3
  | .fatal => 4

/-- The severity with a name, in lower-case letters. -/
def ofLowerName? : String → Option Severity
  | "trace" => some .trace
  | "info" => some .info
  | "warn" => some .warn
  | "error" => some .error
  | "fatal" => some .fatal
  | _ => none

/-- The severity with a name, in any ASCII case; otherwise the
complaint about the name. -/
def parse (text : String) : Except String Severity :=
  match ofLowerName? text.toLower with
  | some severity => .ok severity
  | none => .error ("unknown log level '" ++ text.toLower ++ "'")

theorem ofLowerName?_name (s : Severity) : ofLowerName? s.name.toLower = some s := by
  cases s <;> decide +kernel

theorem parse_name (s : Severity) : parse s.name = .ok s := by
  simp only [parse, ofLowerName?_name]

end Severity

end Lockstep
