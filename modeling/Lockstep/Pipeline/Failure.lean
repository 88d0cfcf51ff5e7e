import Lockstep.Log.Severity
set_option autoImplicit false

/-!
# Failures and crashes

A step of a query can fail with a coded `Failure` or crash with a `Crash`.  A
failure is reported to whoever asked for the step.  A crash ends everything up
to the next place that catches it.  Only the transient failures leave hope that
the same step succeeds later.
-/

namespace Lockstep

/-- What kind of failure occurred. -/
inductive FailureCode where
  | executionFailed
  | invalidLimit
  | incompatibleScan
  | queryParse
  | transactionUnavailable
  deriving DecidableEq, Repr, Inhabited

/-- Who can do something about a failure. -/
inductive FailureClass where
  /-- the query or the way it is run has to change -/
  | configuration
  /-- the same step may succeed later -/
  | transient
  /-- the run is lost -/
  | execution
  deriving DecidableEq, Repr, Inhabited

namespace FailureCode

/-- The code as it is written in messages and logs. -/
def text : FailureCode → String
  | .executionFailed => "AERO_EXECUTION_FAILED"
  | .invalidLimit => "AERO_INVALID_LIMIT"
  | .incompatibleScan => "AERO_INCOMPATIBLE_SCAN"
  | .queryParse => "AERO_QUERY_PARSE"
  | .transactionUnavailable => "AERO_TRANSACTION_UNAVAILABLE"

/-- Every code. -/
def all : List FailureCode :=
  [.executionFailed, .invalidLimit, .incompatibleScan, .queryParse,
    .transactionUnavailable]

/-- The code that is written so. -/
def ofText? (text : String) : Option FailureCode :=
  all.find? fun code => code.text == text

theorem ofText?_text (code : FailureCode) : ofText? code.text = some code := by
  cases code <;> decide

/-- The class of a code. -/
def failureClass : FailureCode → FailureClass
  | .invalidLimit | .incompatibleScan | .queryParse => .configuration
  | .transactionUnavailable => .transient
  | .executionFailed => .execution

/-- No failure is fatal to the program: each is an error of one query. -/
def severity (_code : FailureCode) : Severity := .error

end FailureCode

/-- A failure of a query: its code and what is known of it. -/
structure Failure where
  code : FailureCode
  message : String
  deriving DecidableEq, Repr, Inhabited

namespace Failure

/-- Whether the same step may succeed later. -/
def isTransient (f : Failure) : Bool := f.code.failureClass == .transient

/-- Whether the query or its configuration is at fault. -/
def isConfiguration (f : Failure) : Bool := f.code.failureClass == .configuration

/-- Whether the program has to end. -/
def isFatal (f : Failure) : Bool := f.code.severity == .fatal

/-- The whole text of a failure: severity, code and message. -/
def display (f : Failure) : String :=
  "[" ++ f.code.severity.name ++ "] " ++ f.code.text ++ ": " ++ f.message

/-- Two scans that cannot be shared, described by their kinds. -/
def incompatibleScan (leader follower : String) : Failure :=
  ⟨.incompatibleScan,
    "follower scan " ++ follower ++ " cannot share leader scan " ++ leader⟩

theorem isTransient_iff (f : Failure) :
    f.isTransient = true ↔ f.code = .transactionUnavailable := by
  obtain ⟨code, message⟩ := f
  cases code <;> simp [isTransient, FailureCode.failureClass]

end Failure

/-- What a crash leaves behind. -/
inductive Crash where
  | text (message : String)
  /-- something that is not a text -/
  | other
  deriving DecidableEq, Repr, Inhabited

/-- A crash in words. -/
def Crash.message : Crash → String
  | .text message => message
  | .other => "non-string panic payload"

/-- Why a step gave no result. -/
inductive Interruption where
  | failed (failure : Failure)
  | crashed (crash : Crash)
  deriving DecidableEq, Repr, Inhabited

end Lockstep
