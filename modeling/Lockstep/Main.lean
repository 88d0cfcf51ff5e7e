import Lockstep.Command.Run
import Lockstep.Text.Identifier
set_option autoImplicit false

/-!
# The command line

Reads the files that a command names, runs the command and prints what it
writes.  Results and log lines go to the standard output, errors to the error
stream.  Here, and only here, time is the machine's time.
-/

namespace Lockstep.CommandLine

/-- How the program is used. -/
def usage : String :=
  "Usage: lockstep <COMMAND>\n\n" ++
  "Commands:\n" ++
  "  run           Defer every query in a file, run them in batches, print outcomes\n" ++
  "                --graph <PATH> --queries <PATH> " ++
  "[--config <PATH>] [--strategy scan|dispatch]\n" ++
  "  check-config  Load and validate a configuration file, print the effective values\n" ++
  "                [--config <PATH>]\n" ++
  "  help          Print this message\n"

/-- The complaint about arguments that are no command. -/
def complaint : ArgumentFault → String
  | .helpWanted | .versionWanted | .nothingAsked => ""
  | .unknownCommand => "error: unrecognized subcommand\n\n"
  | .unknownArgument => "error: unexpected argument\n\n"
  | .invalidValue => "error: invalid or missing value for an option\n\n"
  | .valueNotTaken => "error: unexpected value for an option\n\n"
  | .repeated => "error: an option cannot be used multiple times\n\n"
  | .missingOption => "error: required options were not provided\n\n"

/-- Answer arguments that are no command. -/
def refuse (fault : ArgumentFault) : IO UInt32 := do
  match fault with
  | .helpWanted => IO.print usage; return 0
  | .versionWanted => IO.println "lockstep 0.1.0"; return 0
  | _ => IO.eprint (complaint fault ++ usage); return 2

/-- Read a file. -/
def readFile (path : String) : IO InputFile := do
  try
    let bytes ← IO.FS.readBinFile path
    match String.fromUTF8? bytes with
    | some text => return ⟨path, .ok text⟩
    | none => return ⟨path, .error .notText⟩
  catch
    | .noFileOrDirectory .. => return ⟨path, .error .missing⟩
    | e => return ⟨path, .error (.other (toString e))⟩

/-- A name whose digits follow from a seed. -/
def randomName (seed : Nat) : String :=
  let digits := (List.range 32).foldl
    (fun (digits, gen) _ =>
      let (digit, gen) := randNat gen 0 15
      (Nat.digitChar digit :: digits, gen))
    (([] : List Char), mkStdGen seed)
  Text.Identifier.ofDigits digits.1

/-- Names for an engine and its batches. -/
def randomNames : IO Names := do
  let seed ← IO.rand 0 0x7FFFFFFF
  return ⟨randomName seed, fun batch => randomName (seed + batch + 1)⟩

/-- Write log entries. -/
def writeLog (least : Severity) (entries : List LogEntry) : IO Unit := do
  for line in LogEntry.written least .stdout entries do IO.print line
  for line in LogEntry.written least .stderr entries do IO.eprint line

/-- Write what an engine has logged and empty its log. -/
def flushLog (least : Severity) (e : Engine) : IO Engine := do
  writeLog least e.log.toList
  return { e with log := #[] }

/-- End a command with an error. -/
def fail (e : CommandError) : IO UInt32 := do
  IO.eprintln e.display
  return 1

/-- Wait until the time that an engine has come to, and show it how much has
passed since it was made. -/
def passTime (started : Nat) (e : Engine) : IO Engine := do
  let elapsed := (← IO.monoMsNow) - started
  if elapsed < e.now then IO.sleep (e.now - elapsed).toUInt32
  return e.elapse ((← IO.monoMsNow) - started)

/-- Run the queries of a file over a graph. -/
def runQueries (config : Option String) (graph queries : String) (strategy : Strategy) :
    IO UInt32 := do
  let configFile ← config.mapM readFile
  match Command.loadConfig configFile with
  | .error e => fail e
  | .ok config =>
    match Command.logLevel config with
    | .error e => fail e
    | .ok least =>
      writeLog least [Command.configEntry configFile]
      let started ← IO.monoMsNow
      match Run.start config (← randomNames) (← readFile graph)
          (← readFile queries) strategy with
      | .error e => fail e
      | .ok r =>
        let (result, engine) ← r.driveIn (passTime started)
        let engine ← flushLog least engine
        match result with
        | .error stop =>
          let _ ← flushLog least engine.shutdown.2
          fail (Run.stopError stop)
        | .ok () =>
          let (lines, engine) := Run.report { r with engine := engine }
          for line in lines do IO.print (Report.written line)
          let _ ← flushLog least engine.shutdown.2
          return 0

/-- Show the configuration of a file. -/
def checkConfig (path : String) : IO UInt32 := do
  let file ← readFile path
  match Command.loadConfig (some file) with
  | .error e => fail e
  | .ok config =>
    match Command.logLevel config with
    | .error e => fail e
    | .ok least =>
      writeLog least [Command.configEntry (some file)]
      IO.print (Report.written (Report.response config.toValue))
      return 0

end Lockstep.CommandLine

/-- Run the program. -/
def main (arguments : List String) : IO UInt32 :=
  match Lockstep.Command.ofArguments arguments with
  | .error fault => Lockstep.CommandLine.refuse fault
  | .ok (.run config graph queries strategy) =>
    Lockstep.CommandLine.runQueries config graph queries strategy
  | .ok (.checkConfig path) => Lockstep.CommandLine.checkConfig path
