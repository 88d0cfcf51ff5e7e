import Lockstep.Json.Token
set_option autoImplicit false

/-!
# JSON documents

A document is the syntax tree of a JSON text: object members in the order they
are written, repetitions included, number literals and strings not yet read.
The reader is a machine with a stack of open arrays and objects that takes one
token per step, so a text of any depth is read.

`Document.toValue?` reads a document as a value.  It refuses numbers out of
range, lone surrogates and nesting deeper than `maxDepth`; of two members with
one key the later stays.
-/

namespace Lockstep.Json

/-- The syntax tree of a JSON text. -/
inductive Document where
  | null
  | bool (value : Bool)
  | number (literal : NumberLiteral)
  | string (pieces : List Piece)
  | array (items : List Document)
  | object (members : List (List Piece × Document))
  deriving Repr, Inhabited

/-- An array or object that is still open; its contents newest first. -/
inductive Frame where
  | array (items : List Document)
  | object (members : List (List Piece × Document)) (key : List Piece)
  deriving Repr, Inhabited

/-- What the reader expects next. -/
inductive Expecting where
  /-- a value -/
  | value
  /-- a value or the end of the array that was just opened -/
  | firstItem
  /-- a key or the end of the object that was just opened -/
  | firstKey
  /-- a key, after some members -/
  | key (members : List (List Piece × Document))
  /-- the colon behind a key -/
  | colon (members : List (List Piece × Document)) (key : List Piece)
  /-- a comma or the end of an array -/
  | nextItem (items : List Document)
  /-- a comma or the end of an object -/
  | nextMember (members : List (List Piece × Document))
  /-- nothing: the document is complete -/
  | done (document : Document)
  deriving Repr, Inhabited

/-- A reader: its expectation and the arrays and objects around it, innermost first. -/
structure Reader where
  expecting : Expecting
  frames : List Frame
  deriving Repr, Inhabited

namespace Reader

/-- A reader at the start of a text. -/
def start : Reader := ⟨.value, []⟩

/-- Hand a complete document to the innermost open array or object. -/
def complete (document : Document) : List Frame → Reader
  | [] => ⟨.done document, []⟩
  | .array items :: frames => ⟨.nextItem (document :: items), frames⟩
  | .object members key :: frames => ⟨.nextMember ((key, document) :: members), frames⟩

/-- Begin a value with a token. -/
def begin (frames : List Frame) : Token → Option Reader
  | .null => some (complete .null frames)
  | .bool b => some (complete (.bool b) frames)
  | .number l => some (complete (.number l) frames)
  | .string ps => some (complete (.string ps) frames)
  | .openArray => some ⟨.firstItem, frames⟩
  | .openObject => some ⟨.firstKey, frames⟩
  | _ => none

/-- Take one token. -/
def step (r : Reader) (token : Token) : Option Reader :=
  match r.expecting, token with
  | .value, t => begin r.frames t
  | .firstItem, .closeArray => some (complete (.array []) r.frames)
  | .firstItem, t => begin (.array [] :: r.frames) t
  | .firstKey, .closeObject => some (complete (.object []) r.frames)
  | .firstKey, .string key => some ⟨.colon [] key, r.frames⟩
  | .key members, .string key => some ⟨.colon members key, r.frames⟩
  | .colon members key, .colon => some ⟨.value, .object members key :: r.frames⟩
  | .nextItem items, .comma => some ⟨.value, .array items :: r.frames⟩
  | .nextItem items, .closeArray => some (complete (.array items.reverse) r.frames)
  | .nextMember members, .comma => some ⟨.key members, r.frames⟩
  | .nextMember members, .closeObject =>
    some (complete (.object members.reverse) r.frames)
  | _, _ => none

end Reader

/-- The document of a text: one value with white space around it. -/
def Document.read? (text : String) : Option Document := do
  let tokens ← tokens? text.toList
  let reader ← tokens.foldlM Reader.step Reader.start
  match reader.expecting with
  | .done document => some document
  | _ => none

/-- How many arrays and objects may lie inside each other. -/
def maxDepth : Nat := 127

mutual

/-- The value of a document, with room for `depth` levels of arrays and objects. -/
def Document.toValue? : Document → Nat → Option Value
  | .null, _ => some .null
  | .bool b, _ => some (.bool b)
  | .number l, _ => l.value?.map .number
  | .string ps, _ => (text? ps).map .string
  | .array _, 0 => none
  | .array items, depth + 1 => (itemsToValues? items depth).map .array
  | .object _, 0 => none
  | .object members, depth + 1 =>
    (membersToFields? members depth).map fun fields => .object (Fields.ofList fields)

/-- The values of the items of an array. -/
def itemsToValues? : List Document → Nat → Option (List Value)
  | [], _ => some []
  | item :: items, depth => do
    let value ← item.toValue? depth
    let values ← itemsToValues? items depth
    return value :: values

/-- The bindings of the members of an object, in the order they are written. -/
def membersToFields? :
    List (List Piece × Document) → Nat → Option (List (String × Value))
  | [], _ => some []
  | (pieces, document) :: members, depth => do
    let key ← text? pieces
    let value ← document.toValue? depth
    let fields ← membersToFields? members depth
    return (key, value) :: fields

end

end Json

/-- The value of a JSON text. -/
def Value.read? (text : String) : Option Value :=
  (Json.Document.read? text).bind fun document => document.toValue? Json.maxDepth

end Lockstep
