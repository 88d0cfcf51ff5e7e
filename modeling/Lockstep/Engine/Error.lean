import Lockstep.Batch.Advance
set_option autoImplicit false

/-!
# Errors of batching and of the engine
-/

namespace Lockstep

/-- Why the engine did not do what it was asked. -/
inductive EngineError where
  /-- a query failed -/
  | query (failure : Failure)
  /-- the registry holds as many batches as it can -/
  | registryFull (capacity : Nat)
  /-- a round was aborted and may be tried again -/
  | roundAborted (reason : Failure)
  /-- a batch failed with all its members -/
  | batchFailed (members : Nat) (reason : String)
  /-- the workers that advance batches on their own are running -/
  | propagationRunning
  | poolUnavailable (detail : String)
  | invalidConfig (detail : String)
  deriving DecidableEq, Repr, Inhabited

namespace EngineError

/-- The code of the error. -/
def code : EngineError → String
  | .query failure => failure.code.text
  | .registryFull _ => "AERO_REGISTRY_FULL"
  | .roundAborted _ => "AERO_ROUND_ABORTED"
  | .batchFailed _ _ => "AERO_BATCH_FAILED"
  | .propagationRunning => "AERO_PROPAGATION_RUNNING"
  | .poolUnavailable _ => "AERO_POOL_UNAVAILABLE"
  | .invalidConfig _ => "AERO_INVALID_CONFIG"

/-- The error in words. -/
def display : EngineError → String
  | .query failure => failure.display
  | .registryFull capacity =>
    "Batch registry full: " ++ toString capacity ++ " slots in use"
  | .roundAborted reason =>
    "Round aborted before the shared scan moved: " ++ reason.display
  | .batchFailed members reason =>
    "Batch failed, " ++ toString members ++ " operations reported the failure: " ++ reason
  | .propagationRunning => "Propagation is running"
  | .poolUnavailable detail => "Worker pool unavailable: " ++ detail
  | .invalidConfig detail => "Invalid configuration: " ++ detail

/-- Whether the same call may succeed later. -/
def isTransient : EngineError → Bool
  | .query failure => failure.isTransient
  | .registryFull _ | .roundAborted _ => true
  | _ => false

end EngineError

/-- The error that ended an advance, if one did. -/
def AdvanceEnd.error? : AdvanceEnd → Option EngineError
  | .ran _ | .crashed _ => none
  | .aborted reason => some (.roundAborted reason)
  | .failed members reason => some (.batchFailed members reason.display)

end Lockstep
