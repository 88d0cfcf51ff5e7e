import Lockstep.Json.Number
import Lockstep.Text.Blank
import Lockstep.Text.Letter
import Lockstep.Value.Compact
set_option autoImplicit false

/-!
# Tokens of a query text

White space only separates.  A word is an identifier or a keyword, which one is
for the grammar to say.  A number is a run of digits and points behind an
optional minus; a point that no digit follows ends it.  A string stands between
two equal quotes of either sort, and a backslash makes the next character part
of it, whatever it is.
-/

namespace Lockstep.Query

/-- Punctuation and comparison signs. -/
inductive Symbol where
  | openParen
  | closeParen
  | colon
  | dot
  | comma
  | semicolon
  | eq
  | ne
  | lt
  | le
  | gt
  | ge
  deriving DecidableEq, Repr, Inhabited

/-- A sign as it is written; "differs from" has a second spelling that is
read as the first. -/
def Symbol.text : Symbol → String
  | .openParen => "("
  | .closeParen => ")"
  | .colon => ":"
  | .dot => "."
  | .comma => ","
  | .semicolon => ";"
  | .eq => "="
  | .ne => "<>"
  | .lt => "<"
  | .le => "<="
  | .gt => ">"
  | .ge => ">="

/-- A token. -/
inductive Token where
  | word (text : String)
  | literal (value : Value)
  | symbol (symbol : Symbol)
  deriving Repr, Inhabited

/-- A token in words. -/
def Token.describe : Token → String
  | .word text => "'" ++ text ++ "'"
  | .literal value => value.compact
  | .symbol s => "'" ++ s.text ++ "'"

/-- Why a text is no sequence of tokens. -/
inductive LexError where
  | unterminatedString
  | invalidNumber (text : String)
  | unexpectedCharacter (c : Char) (position : Nat)
  deriving DecidableEq, Repr, Inhabited

/-- The complaint about a text. -/
def LexError.message : LexError → String
  | .unterminatedString => "unterminated string literal"
  | .invalidNumber text => "invalid number '" ++ text ++ "'"
  | .unexpectedCharacter c position =>
    "unexpected character '" ++ c.toString ++ "' at position " ++ toString position

/-- Read a string whose opening quote is past: its characters and what follows
the closing quote. -/
def scanString (quote : Char) : List Char → Option (List Char × List Char)
  | [] => none
  | '\\' :: c :: rest => (scanString quote rest).map fun (cs, r) => (c :: cs, r)
  | c :: rest =>
    if c = quote then some ([], rest)
    else (scanString quote rest).map fun (cs, r) => (c :: cs, r)

/-- The digits and points that go on with a number, and what follows them.  A
point belongs to the number only if a digit follows it. -/
def scanDigits : List Char → List Char × List Char
  | [] => ([], [])
  | c :: rest =>
    if c.isDigit || (c == '.' && (rest.head?.map Char.isDigit).getD false) then
      let (ds, r) := scanDigits rest
      (c :: ds, r)
    else ([], c :: rest)

theorem scanDigits_append (cs : List Char) :
    (scanDigits cs).1 ++ (scanDigits cs).2 = cs := by
  induction cs with
  | nil => rfl
  | cons c rest ih =>
    unfold scanDigits
    split
    · exact congrArg (c :: ·) ih
    · rfl

/-- The number that the digits and points of an unsigned number stand for.
With a point it is the binary64 number nearest to the decimal, without one a
signed 64-bit integer. -/
def numberValue? (negative : Bool) (digits : List Char) : Option Number :=
  let whole := digits.takeWhile (· != '.')
  match digits.dropWhile (· != '.') with
  | [] =>
    let n : Int := NumberLiteral.digitsValue whole
    let n := if negative then -n else n
    if -Number.maxSigned - 1 ≤ n ∧ n ≤ Number.maxSigned then some (.int n) else none
  | _ :: fraction =>
    if fraction.all Char.isDigit then
      (Binary64.ofDecimal? negative (NumberLiteral.digitsValue (whole ++ fraction))
        (-(fraction.length : Int))).map .float
    else none

/-- Read a number that starts with a digit, a minus before it being past. -/
def scanNumber (negative : Bool) (cs : List Char) :
    Except LexError (Token × List Char) :=
  let (digits, rest) := scanDigits cs
  match numberValue? negative digits with
  | some n => .ok (.literal (.number n), rest)
  | none =>
    .error (.invalidNumber (String.ofList (if negative then '-' :: digits else digits)))

/-- Read a word whose first character starts one. -/
def scanWord (cs : List Char) : Token × List Char :=
  (.word (String.ofList (cs.takeWhile Text.continuesWord)),
    cs.dropWhile Text.continuesWord)

/-- Read one token that starts with `c` at `position`. -/
def scanToken (position : Nat) (c : Char) (rest : List Char) :
    Except LexError (Token × List Char) :=
  match c, rest with
  | '(', _ => .ok (.symbol .openParen, rest)
  | ')', _ => .ok (.symbol .closeParen, rest)
  | ':', _ => .ok (.symbol .colon, rest)
  | '.', _ => .ok (.symbol .dot, rest)
  | ',', _ => .ok (.symbol .comma, rest)
  | ';', _ => .ok (.symbol .semicolon, rest)
  | '=', _ => .ok (.symbol .eq, rest)
  | '<', '=' :: r => .ok (.symbol .le, r)
  | '<', '>' :: r => .ok (.symbol .ne, r)
  | '<', _ => .ok (.symbol .lt, rest)
  | '>', '=' :: r => .ok (.symbol .ge, r)
  | '>', _ => .ok (.symbol .gt, rest)
  | '!', '=' :: r => .ok (.symbol .ne, r)
  | _, _ =>
    if c = '\'' ∨ c = '"' then
      match scanString c rest with
      | some (cs, r) => .ok (.literal (.string (String.ofList cs)), r)
      | none => .error .unterminatedString
    else if c.isDigit then scanNumber false (c :: rest)
    else if c = '-' ∧ (rest.head?.map Char.isDigit).getD false = true then
      scanNumber true rest
    else if Text.startsWord c then .ok (scanWord (c :: rest))
    else .error (.unexpectedCharacter c position)

/-- The tokens of a text of `total` characters from some point on, read in at
most `fuel` steps; a step takes at least one character. -/
def scanAll (total : Nat) : Nat → List Char → Except LexError (List Token)
  | _, [] => .ok []
  | 0, _ :: _ => .ok []
  | fuel + 1, c :: rest =>
    if Text.isBlank c then scanAll total fuel rest
    else do
      let (token, r) ← scanToken (total - (rest.length + 1)) c rest
      let tokens ← scanAll total fuel r
      return token :: tokens

/-- The tokens of a query text, or the first thing in it that is none. -/
def tokens (text : String) : Except LexError (List Token) :=
  let cs := text.toList
  scanAll cs.length cs.length cs

end Lockstep.Query
