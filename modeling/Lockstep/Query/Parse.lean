import Lockstep.Pipeline.Failure
import Lockstep.Query.Basic
import Lockstep.Query.Token
set_option autoImplicit false

/-!
# Reading queries

    MATCH ( name [: label] ) [WHERE name.field sign literal {AND …}]
    RETURN name[.field] {, …} [LIMIT literal] [;]

Keywords and the literals `true`, `false` and `null` are words in any ASCII case,
none of them reserved.  Every name has to be the one that the pattern binds.
-/

namespace Lockstep.Query

/-- A part of a query that is missing. -/
inductive Wanted where
  | keyword (text : String)
  | symbol (symbol : Symbol)
  | identifier
  | comparison
  | literal
  deriving DecidableEq, Repr, Inhabited

/-- A missing part in words. -/
def Wanted.describe : Wanted → String
  | .keyword text => text
  | .symbol s => "'" ++ s.text ++ "'"
  | .identifier => "identifier"
  | .comparison => "comparison operator"
  | .literal => "literal"

/-- Why a text is no query. -/
inductive ParseError where
  | lexical (error : LexError)
  /-- something else stands, or nothing is left, where a part belongs -/
  | expected (wanted : Wanted) (found : Option Token)
  /-- a name that the pattern does not bind -/
  | unknownName (name : String)
  /-- a sign that compares nothing -/
  | unsupportedComparison (symbol : Symbol)
  /-- something follows the query -/
  | trailing (token : Token)
  deriving Repr, Inhabited

/-- The complaint about a text. -/
def ParseError.message : ParseError → String
  | .lexical e => e.message
  | .expected wanted found =>
    "expected " ++ wanted.describe ++ ", found " ++
      (found.map Token.describe).getD "end of query"
  | .unknownName name => "unknown variable '" ++ name ++ "'"
  | .unsupportedComparison s => "unsupported operator '" ++ s.text ++ "'"
  | .trailing token => "unexpected " ++ token.describe ++ " after end of query"

/-- The failure that a query text ends in. -/
def ParseError.toFailure (e : ParseError) : Failure := ⟨.queryParse, e.message⟩

/-- What was read of a query, and the tokens after it. -/
abbrev Parsed (α : Type) := α × List Token

/-- Whether a token is a keyword, in any ASCII case.  The keyword is
given in lower case. -/
def isKeyword (lower : String) : Token → Bool
  | .word text => text.toLower == lower
  | _ => false

/-- Whether a token is a sign. -/
def isSymbol (s : Symbol) : Token → Bool
  | .symbol t => t == s
  | _ => false

/-- The tokens behind a token with a property, if one comes next. -/
def skip? (accept : Token → Bool) : List Token → Option (List Token)
  | token :: rest => if accept token then some rest else none
  | [] => none

/-- Read a token with a property. -/
def demand (wanted : Wanted) (accept : Token → Bool) (tokens : List Token) :
    Except ParseError (List Token) :=
  match skip? accept tokens with
  | some rest => .ok rest
  | none => .error (.expected wanted tokens.head?)

/-- Read a keyword, given as it is named in complaints and in lower case. -/
def demandKeyword (name lower : String) : List Token → Except ParseError (List Token) :=
  demand (.keyword name) (isKeyword lower)

/-- Read a sign. -/
def demandSymbol (s : Symbol) : List Token → Except ParseError (List Token) :=
  demand (.symbol s) (isSymbol s)

/-- Read a word. -/
def identifier : List Token → Except ParseError (Parsed String)
  | .word text :: rest => .ok (text, rest)
  | tokens => .error (.expected .identifier tokens.head?)

/-- Read the name that the pattern binds. -/
def boundName (binding : String) (tokens : List Token) :
    Except ParseError (List Token) := do
  let (name, rest) ← identifier tokens
  if name = binding then .ok rest else .error (.unknownName name)

/-- The literal that a word is, in any ASCII case. -/
def wordLiteral? (text : String) : Option Value :=
  match text.toLower with
  | "true" => some (.bool true)
  | "false" => some (.bool false)
  | "null" => some .null
  | _ => none

/-- Read a literal. -/
def literal : List Token → Except ParseError (Parsed Value)
  | .literal value :: rest => .ok (value, rest)
  | .word text :: rest =>
    match wordLiteral? text with
    | some value => .ok (value, rest)
    | none => .error (.expected .literal (some (.word text)))
  | tokens => .error (.expected .literal tokens.head?)

/-- The comparison that a sign stands for. -/
def comparison? : Symbol → Option Comparison
  | .eq => some .eq
  | .ne => some .ne
  | .lt => some .lt
  | .le => some .le
  | .gt => some .gt
  | .ge => some .ge
  | _ => none

/-- Read a predicate.  The operand is read before the sign is looked at. -/
def predicate (binding : String) (tokens : List Token) :
    Except ParseError (Parsed Predicate) := do
  let tokens ← boundName binding tokens
  let tokens ← demandSymbol .dot tokens
  let (field, tokens) ← identifier tokens
  match tokens with
  | .symbol sign :: tokens =>
    let (operand, tokens) ← literal tokens
    match comparison? sign with
    | some comparison => .ok (⟨field, comparison, operand⟩, tokens)
    | none => .error (.unsupportedComparison sign)
  | tokens => .error (.expected .comparison tokens.head?)

/-- Read a returned column. -/
def item (binding : String) (tokens : List Token) :
    Except ParseError (Parsed Item) := do
  let tokens ← boundName binding tokens
  match skip? (isSymbol .dot) tokens with
  | some tokens =>
    let (name, tokens) ← identifier tokens
    .ok (.property binding name, tokens)
  | none => .ok (.node binding, tokens)

/-- Read one or more parts with a separator between them, at most `fuel` of them. -/
def separated {α : Type} (part : List Token → Except ParseError (Parsed α))
    (separator : Token → Bool) : Nat → List Token → Except ParseError (Parsed (List α))
  | 0, tokens => .ok ([], tokens)
  | fuel + 1, tokens => do
    let (first, tokens) ← part tokens
    match skip? separator tokens with
    | some tokens =>
      let (others, tokens) ← separated part separator fuel tokens
      .ok (first :: others, tokens)
    | none => .ok ([first], tokens)

/-- Read the label behind a colon, if there is one. -/
def label? (tokens : List Token) : Except ParseError (Parsed (Option String)) :=
  match skip? (isSymbol .colon) tokens with
  | some tokens => do
    let (name, tokens) ← identifier tokens
    .ok (some name, tokens)
  | none => .ok (none, tokens)

/-- Read the predicates behind WHERE, if there are any. -/
def predicates (binding : String) (tokens : List Token) :
    Except ParseError (Parsed (List Predicate)) :=
  match skip? (isKeyword "where") tokens with
  | some tokens =>
    separated (predicate binding) (isKeyword "and") (tokens.length + 1) tokens
  | none => .ok ([], tokens)

/-- Read the literal behind LIMIT, if there is one. -/
def limit? (tokens : List Token) : Except ParseError (Parsed (Option Value)) :=
  match skip? (isKeyword "limit") tokens with
  | some tokens => do
    let (value, tokens) ← literal tokens
    .ok (some value, tokens)
  | none => .ok (none, tokens)

/-- Read a whole query from its tokens. -/
def ofTokens (tokens : List Token) : Except ParseError MatchQuery := do
  let tokens ← demandKeyword "MATCH" "match" tokens
  let tokens ← demandSymbol .openParen tokens
  let (binding, tokens) ← identifier tokens
  let (label, tokens) ← label? tokens
  let tokens ← demandSymbol .closeParen tokens
  let (predicates, tokens) ← predicates binding tokens
  let tokens ← demandKeyword "RETURN" "return" tokens
  let (returns, tokens) ←
    separated (item binding) (isSymbol .comma) (tokens.length + 1) tokens
  let (limit, tokens) ← limit? tokens
  let tokens := (skip? (isSymbol .semicolon) tokens).getD tokens
  match tokens with
  | [] => .ok ⟨binding, label, predicates, returns, limit⟩
  | token :: _ => .error (.trailing token)

/-- Read a query. -/
def parse (text : String) : Except ParseError MatchQuery :=
  match tokens text with
  | .error e => .error (.lexical e)
  | .ok tokens => ofTokens tokens

end Lockstep.Query
