import Lockstep.Command.Arguments
import Lockstep.Command.Input
import Lockstep.Command.Report
import Lockstep.Engine.Lifecycle
set_option autoImplicit false

/-!
# Running commands

`run` accepts every query of a file, drives the batches until no operation
remains and reports every query; `check-config` shows the configuration that a
file gives.  Configuration, graph and queries are read in this order, and the
first that cannot be read ends the command.
-/

namespace Lockstep

namespace Command

/-- Read the configuration; without a file it is the default one. -/
def loadConfig : Option InputFile → Except CommandError Config
  | none => .ok {}
  | some file =>
    match file.config with
    | .error e => .error (.ofConfig e)
    | .ok config => .ok config

/-- The log level of a configuration. -/
def logLevel (config : Config) : Except CommandError Severity :=
  match config.severity with
  | .error fault => .error (.ofConfig (.invalid fault))
  | .ok severity => .ok severity

/-- The entry that tells where the configuration came from. -/
def configEntry (file : Option InputFile) : LogEntry :=
  Event.configLoaded.entry [("source", (file.map InputFile.path).getD "defaults")]

/-- The line that shows a configuration. -/
def configLine (file : InputFile) : Except CommandError Value :=
  (loadConfig (some file)).map fun config => Report.response config.toValue

end Command

/-- A run whose queries were handed to the engine. -/
structure Run where
  strategy : Strategy
  /-- the queries in order, each with its sequence number or the reason why it
  was not accepted -/
  queries : List (String × Except EngineError Nat)
  engine : Engine
  deriving Inhabited

namespace Run

/-- Hand queries to the engine. -/
def acceptAll (e : Engine) :
    List String → List (String × Except EngineError Nat) × Engine
  | [] => ([], e)
  | query :: others =>
    let (result, e) := e.execute Plan.ofText query
    let (results, e) := acceptAll e others
    ((query, result) :: results, e)

/-- Read the graph and the queries and hand the queries to a new engine. -/
def start (config : Config) (names : Names) (graph queries : InputFile)
    (strategy : Strategy) :
    Except CommandError Run := do
  let nodes ← graph.nodes
  let queries ← queries.queries
  match Engine.create config names (GraphFile.toGraph nodes) with
  | .error e => throw (.ofEngine e)
  | .ok engine =>
    let (queries, engine) := acceptAll engine queries
    return ⟨strategy, queries, engine⟩

/-- The error that a drain ends a command with. -/
def stopError : Stop → CommandError
  | .error e => .ofEngine e
  | .crashed crash => ⟨.engine, crash.message⟩

/-- Drive the batches until no operation remains, while time passes. -/
def driveIn {m : Type → Type} [Monad m] (pass : Engine → m Engine) (r : Run) :
    m (Except Stop Unit × Engine) :=
  match r.strategy with
  | .scan => r.engine.propagateIn pass
  | .dispatch => r.engine.dispatchIn pass

/-- Drive the batches with no time passing but for the waits. -/
def drive (r : Run) : Except CommandError Run :=
  match Id.run (r.driveIn pure) with
  | (.error stop, _) => .error (stopError stop)
  | (.ok (), engine) => .ok { r with engine := engine }

/-- The lines of the report, and the engine without the outcomes in it. -/
def report (r : Run) : List Value × Engine :=
  let (lines, engine) := Report.outcomes r.engine r.queries
  (lines ++ [Report.metrics engine], engine)

/-- Run the queries of a file over a graph: the lines to write. -/
def lines (config : Option InputFile) (names : Names) (graph queries : InputFile)
    (strategy : Strategy) : Except CommandError (List Value) := do
  let config ← Command.loadConfig config
  let prepared ← start config names graph queries strategy
  let driven ← prepared.drive
  return driven.report.1

end Run

end Lockstep
