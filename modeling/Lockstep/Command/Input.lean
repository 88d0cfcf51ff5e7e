import Lockstep.Command.Error
import Lockstep.Graph.File
import Lockstep.Text.Blank
set_option autoImplicit false

/-!
# Input files

A command works on the contents of files: a configuration, a graph and a list of
queries, one a line.  Blank lines of queries and lines that start with two
slashes are skipped.
-/

namespace Lockstep

/-- Why a file cannot be read. -/
inductive ReadFault where
  | missing
  /-- the bytes are not UTF-8 -/
  | notText
  | other (detail : String)
  deriving DecidableEq, Repr, Inhabited

/-- The fault in words. -/
def ReadFault.message : ReadFault → String
  | .missing => "No such file or directory (os error 2)"
  | .notText => "stream did not contain valid UTF-8"
  | .other detail => detail

/-- A file: where it is, and what it holds. -/
structure InputFile where
  path : String
  content : Except ReadFault String
  deriving Inhabited

namespace InputFile

/-- The complaint about a file that cannot be read. -/
def complaint (file : InputFile) (fault : ReadFault) : String :=
  "Failed to read " ++ file.path ++ ": " ++ fault.message

/-- Read a configuration. -/
def config (file : InputFile) : Except ConfigError Config :=
  match file.content with
  | .error fault => .error (.unreadable file.path fault.message)
  | .ok text => Config.ofText text

/-- Read the nodes of a graph. -/
def nodes (file : InputFile) : Except CommandError (List Node) :=
  match file.content with
  | .error fault => .error ⟨.graph, file.complaint fault⟩
  | .ok text =>
    match GraphFile.nodes? text with
    | none => .error ⟨.graph, "Invalid graph JSON"⟩
    | some nodes => .ok nodes

/-- Whether a trimmed line holds a query. -/
def isQuery : List Char → Bool
  | [] => false
  | '/' :: '/' :: _ => false
  | _ => true

/-- The queries of a text. -/
def queriesOf (text : String) : List String :=
  (((Text.lines text.toList).map Text.trim).filter isQuery).map String.ofList

/-- Read the queries of a file. -/
def queries (file : InputFile) : Except CommandError (List String) :=
  match file.content with
  | .error fault => .error ⟨.io, file.complaint fault⟩
  | .ok text => .ok (queriesOf text)

end InputFile

end Lockstep
