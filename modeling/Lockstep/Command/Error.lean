import Lockstep.Config
import Lockstep.Engine.Error
set_option autoImplicit false

/-!
# Errors of commands

A command that cannot go on ends with an error: what it was about, and a message.
-/

namespace Lockstep

/-- What an error of a command is about. -/
inductive CommandSubject where
  | config
  | io
  | graph
  | engine
  deriving DecidableEq, Repr, Inhabited

/-- The code of errors about something. -/
def CommandSubject.code : CommandSubject → String
  | .config => "AERO_CLI_CONFIG_ERROR"
  | .io => "AERO_CLI_IO_ERROR"
  | .graph => "AERO_CLI_GRAPH_ERROR"
  | .engine => "AERO_CLI_ENGINE_ERROR"

/-- Why a command could not go on. -/
structure CommandError where
  subject : CommandSubject
  message : String
  deriving DecidableEq, Repr, Inhabited

namespace CommandError

/-- The code of the error. -/
def code (e : CommandError) : String := e.subject.code

/-- The error in words. -/
def display (e : CommandError) : String := e.code ++ ": " ++ e.message

/-- A command that has no configuration. -/
def ofConfig (e : ConfigError) : CommandError := ⟨.config, e.message⟩

/-- A command whose engine refused something. -/
def ofEngine (e : EngineError) : CommandError := ⟨.engine, e.code ++ ": " ++ e.display⟩

end CommandError

end Lockstep
