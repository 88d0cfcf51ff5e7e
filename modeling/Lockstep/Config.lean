import Lockstep.Json.Record
import Lockstep.Log.Severity
set_option autoImplicit false

/-!
# Configuration

The numbers that tune an engine.  A configuration is read from a JSON record in
which every field may be left out, and is checked before it is used.
-/

namespace Lockstep

/-- The tunables of an engine. -/
structure Config where
  /-- operations in one batch, at most -/
  batchSize : Nat := 10
  /-- rounds of one advance, and the lead that a batch needs over the next -/
  stride : Nat := 42000
  numWorkers : Nat := 4
  /-- waiting tasks for each worker, at most -/
  queueTolerance : Nat := 3
  /-- live batches, at most -/
  registryCapacity : Nat := 16384
  /-- aborted rounds in a row that a batch survives -/
  maxRoundRetries : UInt32 := 3
  /-- the wait after a first aborted round -/
  retryBackoffMs : Nat := 10
  /-- how long the ledger keeps what ended -/
  ledgerRetentionSecs : Nat := 3600
  /-- outcomes stored, at most -/
  outcomeCapacity : Nat := 65536
  logLevel : String := "info"
  deriving DecidableEq, Repr, Inhabited

/-- What is wrong with the values of a configuration. -/
inductive ConfigFault where
  /-- a field that has to be positive is zero -/
  | notPositive (key : String)
  | retentionOutOfRange
  | unknownLevel (complaint : String)
  deriving DecidableEq, Repr, Inhabited

namespace Config

/-- Ten years in seconds. -/
def maxRetentionSecs : Nat := 10 * 365 * 24 * 3600

/-- The largest 64-bit count. -/
def maxCount : Nat := 0xFFFFFFFFFFFFFFFF

end Config

/-- The fault in words. -/
def ConfigFault.message : ConfigFault → String
  | .notPositive key => key ++ " must be >= 1"
  | .retentionOutOfRange =>
    "ledger_retention_secs must be in 1..=" ++ toString Config.maxRetentionSecs
  | .unknownLevel complaint => complaint

/-- Why there is no configuration. -/
inductive ConfigError where
  | unreadable (path detail : String)
  | malformed
  | invalid (fault : ConfigFault)
  deriving DecidableEq, Repr, Inhabited

/-- The error in words. -/
def ConfigError.message : ConfigError → String
  | .unreadable path detail => "Failed to read config " ++ path ++ ": " ++ detail
  | .malformed => "Invalid config JSON"
  | .invalid fault => "Invalid config value: " ++ fault.message

namespace Config

/-- The severity that the log level names. -/
def severity (c : Config) : Except ConfigFault Severity :=
  match Severity.parse c.logLevel with
  | .ok severity => .ok severity
  | .error complaint => .error (.unknownLevel complaint)

/-- Refuse a field that is zero. -/
def positive (key : String) (n : Nat) : Except ConfigFault Unit :=
  if n = 0 then .error (.notPositive key) else .ok ()

theorem positive_eq_ok_iff {key : String} {n : Nat} :
    positive key n = .ok () ↔ 0 < n := by
  unfold positive
  split
  · rename_i hzero
    simp [hzero]
  · rename_i hpositive
    simp [Nat.pos_of_ne_zero hpositive]

/-- Check the values; the first fault in the order of the fields is reported. -/
def validate (c : Config) : Except ConfigFault Unit := do
  positive "batch_size" c.batchSize
  positive "stride" c.stride
  positive "num_workers" c.numWorkers
  positive "queue_tolerance" c.queueTolerance
  positive "registry_capacity" c.registryCapacity
  if c.ledgerRetentionSecs < 1 ∨ maxRetentionSecs < c.ledgerRetentionSecs then
    throw .retentionOutOfRange
  positive "outcome_capacity" c.outcomeCapacity
  let _ ← c.severity
  return ()

theorem validate_of_isOk {c : Config} (h : c.validate.isOk = true) :
    c.validate = .ok () := by
  cases hvalid : c.validate with
  | error fault =>
    rw [hvalid] at h
    cases h
  | ok valid => rfl

theorem validate_default : validate {} = .ok () := validate_of_isOk (by decide +kernel)

/-- A valid configuration lets batches have members, advances have rounds and
workers have tasks. -/
theorem pos_of_validate {c : Config} (h : c.validate = .ok ()) :
    0 < c.batchSize ∧ 0 < c.stride ∧ 0 < c.queueTolerance := by
  unfold validate at h
  rw [← @positive_eq_ok_iff "batch_size", ← @positive_eq_ok_iff "stride",
    ← @positive_eq_ok_iff "queue_tolerance"]
  simp only [bind, Except.bind] at h
  grind

/-- How long the ledger keeps what ended, in milliseconds. -/
def retentionMs (c : Config) : Int := min c.ledgerRetentionSecs maxRetentionSecs * 1000

/-- How many tasks may wait before no more are dispatched. -/
def dispatchLimit (c : Config) : Nat := min (c.numWorkers * c.queueTolerance) maxCount

/-- The fields of the record, in their order. -/
def keys : List String :=
  ["batch_size", "stride", "num_workers", "queue_tolerance", "registry_capacity",
    "max_round_retries", "retry_backoff_ms", "ledger_retention_secs",
      "outcome_capacity",
    "log_level"]

/-- Read a configuration from a record, without checking its values. -/
def ofDocument? (document : Json.Document) : Option Config := do
  let fields ← document.fields? keys
  match fields with
  | [batchSize, stride, numWorkers, queueTolerance, registryCapacity, maxRoundRetries,
      retryBackoffMs, ledgerRetentionSecs, outcomeCapacity, logLevel] =>
    let c : Config := {}
    let count (default : Nat) := Json.orDefault default (Json.Document.nat? maxCount)
    return {
      batchSize := ← count c.batchSize batchSize
      stride := ← count c.stride stride
      numWorkers := ← count c.numWorkers numWorkers
      queueTolerance := ← count c.queueTolerance queueTolerance
      registryCapacity := ← count c.registryCapacity registryCapacity
      maxRoundRetries := ← Json.orDefault c.maxRoundRetries
        (fun d => (d.nat? 0xFFFFFFFF).map UInt32.ofNat) maxRoundRetries
      retryBackoffMs := ← count c.retryBackoffMs retryBackoffMs
      ledgerRetentionSecs := ← count c.ledgerRetentionSecs ledgerRetentionSecs
      outcomeCapacity := ← count c.outcomeCapacity outcomeCapacity
      logLevel := ← Json.orDefault c.logLevel Json.Document.string? logLevel }
  | _ => none

/-- Read and check a configuration. -/
def ofText (text : String) : Except ConfigError Config :=
  match (Json.Document.read? text).bind ofDocument? with
  | none => .error .malformed
  | some c =>
    match c.validate with
    | .error fault => .error (.invalid fault)
    | .ok () => .ok c

/-- The fields by name. -/
def toValue (c : Config) : Value :=
  .ofFields [
    ("batch_size", .nat c.batchSize),
    ("stride", .nat c.stride),
    ("num_workers", .nat c.numWorkers),
    ("queue_tolerance", .nat c.queueTolerance),
    ("registry_capacity", .nat c.registryCapacity),
    ("max_round_retries", .nat c.maxRoundRetries.toNat),
    ("retry_backoff_ms", .nat c.retryBackoffMs),
    ("ledger_retention_secs", .nat c.ledgerRetentionSecs),
    ("outcome_capacity", .nat c.outcomeCapacity),
    ("log_level", .string c.logLevel)]

end Config

end Lockstep
