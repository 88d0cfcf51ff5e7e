import Lockstep.Log.Severity
import Lockstep.Text.Quoted
set_option autoImplicit false

/-!
# Log lines

A log line is one JSON object: the event, the severity, then the fields in the
order of their keys.  All values are strings, and every quote, backslash and
control character in them is escaped, so no field can end its string or its line.
-/

namespace Lockstep

/-- Something to be logged. -/
structure LogEntry where
  severity : Severity
  event : String
  fields : List (String × String) := []
  deriving DecidableEq, Repr, Inhabited

/-- Where log lines go. -/
inductive LogStream where
  | stdout
  | stderr
  deriving DecidableEq, Repr, Inhabited

namespace LogEntry

/-- A control character: the general category Cc. -/
def isControl (c : Char) : Bool := c.toNat < 0x20 || (0x7F ≤ c.toNat && c.toNat < 0xA0)

/-- How a character stands in a log line. -/
def escape (c : Char) : List Char :=
  if c = '"' then ['\\', '"']
  else if c = '\\' then ['\\', '\\']
  else if c = '\n' then ['\\', 'n']
  else if c = '\r' then ['\\', 'r']
  else if c = '\t' then ['\\', 't']
  else if isControl c then Text.unicodeEscape c
  else [c]

/-- A string of a log line. -/
def quote (text : String) : List Char := Text.quoted escape text.toList

/-- One member of the object: key and value. -/
def member (field : String × String) : List Char :=
  quote field.1 ++ ':' :: quote field.2

/-- The fields by key; fields of one key stay in the order they were given. -/
def sortedFields (e : LogEntry) : List (String × String) :=
  e.fields.mergeSort fun a b => a.1 ≤ b.1

/-- The line of an entry, its line feed included. -/
def line (e : LogEntry) : String :=
  let members := ("event", e.event) :: ("severity", e.severity.name) :: e.sortedFields
  String.ofList ('\x7b' :: ([','].intercalate (members.map member)) ++ ['\x7d', '\n'])

/-- Whether a log that drops what lies below `least` takes the entry. -/
def isEnabled (e : LogEntry) (least : Severity) : Bool := least.rank ≤ e.severity.rank

/-- Errors and worse go to the error stream. -/
def stream (e : LogEntry) : LogStream :=
  if Severity.error.rank ≤ e.severity.rank then .stderr else .stdout

end LogEntry

/-- What a log that drops entries below `least` writes to a stream. -/
def LogEntry.written (least : Severity) (stream : LogStream) (entries : List LogEntry) :
    List String :=
  (entries.filter fun e => e.isEnabled least && e.stream == stream).map line

end Lockstep
