set_option autoImplicit false

/-!
# Command-line arguments

    run --graph PATH --queries PATH [--config PATH] [--strategy scan|dispatch]
    check-config [--config PATH]

An option is followed by its value, as the next argument or behind an equals sign.
A value that comes as the next argument is only checked when the next option, or
the end, is reached; an argument that is no option at all is refused at once.
-/

namespace Lockstep

/-- How batches are driven. -/
inductive Strategy where
  /-- workers look for batches that may advance -/
  | scan
  /-- advances are handed to a pool one by one -/
  | dispatch
  deriving DecidableEq, Repr, Inhabited

/-- What the program is asked to do. -/
inductive Command where
  /-- run every query of a file over a graph -/
  | run (config : Option String) (graph queries : String) (strategy : Strategy)
  /-- check a configuration and show what it says -/
  | checkConfig (config : String)
  deriving DecidableEq, Repr, Inhabited

/-- Why the arguments are no command. -/
inductive ArgumentFault where
  | helpWanted
  | versionWanted
  /-- there is no argument to go by -/
  | nothingAsked
  | unknownCommand
  | unknownArgument
  /-- an option without its value, or with one that it does not take -/
  | invalidValue
  /-- a value for an option that takes none -/
  | valueNotTaken
  /-- an option is given twice -/
  | repeated
  /-- an option that has to be given is not -/
  | missingOption
  deriving DecidableEq, Repr, Inhabited

namespace Command

/-- The options of the commands. -/
inductive Setting where
  | config
  | graph
  | queries
  | strategy
  deriving DecidableEq, Repr, Inhabited

/-- The name of an option. -/
def Setting.name : Setting → String
  | .config => "config"
  | .graph => "graph"
  | .queries => "queries"
  | .strategy => "strategy"

/-- The strategy with a name. -/
def strategy? : String → Option Strategy
  | "scan" => some .scan
  | "dispatch" => some .dispatch
  | _ => none

/-- Whether an option takes a value: none takes the empty one. -/
def Setting.accepts (setting : Setting) (value : String) : Bool :=
  match setting with
  | .strategy => (strategy? value).isSome
  | _ => value != ""

/-- The forms of an argument. -/
inductive Argument where
  /-- two hyphens alone: no options follow -/
  | escape
  /-- a name behind two hyphens, and what follows the first equals sign -/
  | long (name : String) (value : Option String)
  /-- letters behind one hyphen -/
  | short (first : Char) (others : List Char)
  | plain (text : String)
  deriving DecidableEq, Repr, Inhabited

/-- The form of an argument. -/
def Argument.ofText (text : String) : Argument :=
  match text.toList with
  | ['-', '-'] => .escape
  | '-' :: '-' :: rest =>
    let name := String.ofList (rest.takeWhile (· != '='))
    match rest.dropWhile (· != '=') with
    | [] => .long name none
    | _ :: value => .long name (some (String.ofList value))
  | '-' :: first :: others => .short first others
  | _ => .plain text

/-- How far the options of a command have been read. -/
structure Reading where
  /-- options and their values -/
  given : List (Setting × String) := []
  /-- the latest option whose value was to follow, and its value once it did -/
  awaiting : Option (Setting × Option String) := none
  /-- whether no options follow -/
  escaped : Bool := false
  deriving Repr, Inhabited

namespace Reading

/-- The value given to an option. -/
def value? (r : Reading) (setting : Setting) : Option String :=
  (r.given.find? fun g => g.1 == setting).map (·.2)

/-- Give a value to an option. -/
def give (r : Reading) (setting : Setting) (value : String) :
    Except ArgumentFault Reading :=
  if (r.value? setting).isSome then .error .repeated
  else if setting.accepts value then .ok { r with given := (setting, value) :: r.given }
  else .error .invalidValue

/-- Check the option whose value was to follow. -/
def settle (r : Reading) : Except ArgumentFault Reading :=
  match r.awaiting with
  | none => .ok r
  | some (_, none) => .error .invalidValue
  | some (setting, some value) => { r with awaiting := none }.give setting value

/-- Take one argument. -/
def take (known : List Setting) (r : Reading) (text : String) :
    Except ArgumentFault Reading :=
  if r.escaped then .error .unknownArgument
  else
    match Argument.ofText text with
    | .escape => .ok { r with escaped := true }
    | .long "help" none | .short 'h' _ => r.settle.bind fun _ => .error .helpWanted
    | .long "help" (some _) => .error .valueNotTaken
    | .long name value =>
      match known.find? fun setting => setting.name == name with
      | none => .error .unknownArgument
      | some setting =>
        r.settle.bind fun r =>
          match value with
          | some value => r.give setting value
          | none => .ok { r with awaiting := some (setting, none) }
    | .short _ _ => .error .unknownArgument
    | .plain value =>
      match r.awaiting with
      | some (setting, none) => .ok { r with awaiting := some (setting, some value) }
      | _ => .error .unknownArgument

/-- Read the options of a command that knows some. -/
def ofArguments (known : List Setting) (arguments : List String) :
    Except ArgumentFault Reading :=
  (arguments.foldlM (take known) {}).bind settle

end Reading

/-- Read the options of `run`. -/
def readRun (arguments : List String) : Except ArgumentFault Command := do
  let r ← Reading.ofArguments [.config, .graph, .queries, .strategy] arguments
  match r.value? .graph, r.value? .queries with
  | some graph, some queries =>
    return .run (r.value? .config) graph queries
      (((r.value? .strategy).bind strategy?).getD .scan)
  | _, _ => throw .missingOption

/-- The configuration file that is checked if no other is named. -/
def defaultConfigPath : String := "./aerograph.json"

/-- Read the options of `check-config`. -/
def readCheckConfig (arguments : List String) : Except ArgumentFault Command := do
  let r ← Reading.ofArguments [.config] arguments
  return .checkConfig ((r.value? .config).getD defaultConfigPath)

/-- The names of the commands. -/
def names : List String := ["run", "check-config", "help"]

/-- What a request for help on a command comes to. -/
def helpFault : List String → ArgumentFault
  | [] => .helpWanted
  | [name] => if names.contains name then .helpWanted else .unknownCommand
  | _ => .unknownCommand

/-- Read the arguments of the program. -/
def ofArguments : List String → Except ArgumentFault Command
  | [] | ["--"] => .error .nothingAsked
  | "run" :: arguments => readRun arguments
  | "check-config" :: arguments => readCheckConfig arguments
  | "help" :: arguments => .error (helpFault arguments)
  | argument :: arguments =>
    match Argument.ofText argument, arguments with
    | .escape, first :: _ =>
      .error (if names.contains first then .unknownArgument else .unknownCommand)
    | .long "help" none, _ | .short 'h' _, _ => .error .helpWanted
    | .long "version" none, _ | .short 'V' _, _ => .error .versionWanted
    | .long "help" (some _), _ | .long "version" (some _), _ => .error .valueNotTaken
    | .plain _, _ => .error .unknownCommand
    | _, _ => .error .unknownArgument

end Command

end Lockstep
