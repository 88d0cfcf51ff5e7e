import Lockstep.Json.Number
set_option autoImplicit false

/-!
# Tokens of a JSON text

The lexical level of JSON: punctuation, the three words, number literals and
strings.  A string token keeps its `\u` escapes as code units, since a text may
be skipped without being decoded; a unit that is half of a surrogate pair is
refused only when the string is read.
-/

namespace Lockstep.Json

/-- One element of a string: a character, or a code unit written as an escape. -/
inductive Piece where
  | char (c : Char)
  | unit (n : Nat)
  deriving DecidableEq, Repr, Inhabited

/-- A token. -/
inductive Token where
  | openObject
  | closeObject
  | openArray
  | closeArray
  | colon
  | comma
  | null
  | bool (value : Bool)
  | number (literal : NumberLiteral)
  | string (pieces : List Piece)
  deriving DecidableEq, Repr, Inhabited

/-- A leading surrogate. -/
def isLeading (n : Nat) : Bool := 0xD800 ≤ n && n ≤ 0xDBFF

/-- A trailing surrogate. -/
def isTrailing (n : Nat) : Bool := 0xDC00 ≤ n && n ≤ 0xDFFF

/-- The characters of a string: code units outside the surrogates stand for
themselves, a leading and a trailing surrogate together for one character.  A
lone surrogate has no reading. -/
def decode? : List Piece → Option (List Char)
  | [] => some []
  | .char c :: rest => (decode? rest).map (c :: ·)
  | .unit n :: .unit m :: rest =>
    if isLeading n then
      if isTrailing m then
        (decode? rest).map
          (Char.ofNat (0x10000 + (n - 0xD800) * 0x400 + (m - 0xDC00)) :: ·)
      else none
    else if isTrailing n then none
    else (decode? (.unit m :: rest)).map (Char.ofNat n :: ·)
  | .unit n :: rest =>
    if isLeading n || isTrailing n then none else (decode? rest).map (Char.ofNat n :: ·)

/-- The string that pieces stand for. -/
def text? (pieces : List Piece) : Option String := (decode? pieces).map String.ofList

/-- The value of a hexadecimal digit. -/
def hexValue? (c : Char) : Option Nat :=
  if c.isDigit then some (c.toNat - '0'.toNat)
  else if 'a' ≤ c ∧ c ≤ 'f' then some (c.toNat - 'a'.toNat + 10)
  else if 'A' ≤ c ∧ c ≤ 'F' then some (c.toNat - 'A'.toNat + 10)
  else none

/-- The code unit of four hexadecimal digits. -/
def unit? (a b c d : Char) : Option Nat := do
  let a ← hexValue? a
  let b ← hexValue? b
  let c ← hexValue? c
  let d ← hexValue? d
  return ((a * 16 + b) * 16 + c) * 16 + d

/-- The character of a one-letter escape. -/
def shortEscape? : Char → Option Char
  | '"' => some '"'
  | '\\' => some '\\'
  | '/' => some '/'
  | 'b' => some '\x08'
  | 'f' => some '\x0c'
  | 'n' => some '\n'
  | 'r' => some '\r'
  | 't' => some '\t'
  | _ => none

/-- Read a string whose opening quote is past: its pieces and what follows the
closing quote.  Characters below the space must be escaped. -/
def scanString : List Char → Option (List Piece × List Char)
  | [] => none
  | '"' :: rest => some ([], rest)
  | '\\' :: 'u' :: a :: b :: c :: d :: rest =>
    (unit? a b c d).bind fun n => (scanString rest).map fun (ps, r) =>
      (.unit n :: ps, r)
  | '\\' :: e :: rest =>
    (shortEscape? e).bind fun c => (scanString rest).map fun (ps, r) =>
      (.char c :: ps, r)
  | c :: rest =>
    if c = '\\' ∨ c.toNat < 0x20 then none
    else (scanString rest).map fun (ps, r) => (.char c :: ps, r)

/-- The digits in front and what follows them. -/
def spanDigits (cs : List Char) : List Char × List Char :=
  (cs.takeWhile Char.isDigit, cs.dropWhile Char.isDigit)

/-- The digits in front, at least one. -/
def someDigits? (cs : List Char) : Option (List Char × List Char) :=
  match spanDigits cs with
  | ([], _) => none
  | (ds, rest) => some (ds, rest)

/-- The whole part: a zero alone, or digits that do not start with zero. -/
def scanWhole : List Char → Option (List Char × List Char)
  | '0' :: rest => some (['0'], rest)
  | cs => someDigits? cs

/-- The part after a point, if there is a point. -/
def scanFraction : List Char → Option (Option (List Char) × List Char)
  | '.' :: rest => (someDigits? rest).map fun (ds, r) => (some ds, r)
  | cs => some (none, cs)

/-- The exponent part, if there is one. -/
def scanExponent : List Char → Option (Option (Bool × List Char) × List Char)
  | c :: rest =>
    if c = 'e' ∨ c = 'E' then
      match rest with
      | '-' :: rest' => (someDigits? rest').map fun (ds, r) => (some (true, ds), r)
      | '+' :: rest' => (someDigits? rest').map fun (ds, r) => (some (false, ds), r)
      | rest' => (someDigits? rest').map fun (ds, r) => (some (false, ds), r)
    else some (none, c :: rest)
  | [] => some (none, [])

/-- Read a number literal. -/
def scanNumber (cs : List Char) : Option (NumberLiteral × List Char) := do
  let (negative, cs) := match cs with
    | '-' :: rest => (true, rest)
    | cs => (false, cs)
  let (whole, cs) ← scanWhole cs
  let (fraction, cs) ← scanFraction cs
  let (exponent, cs) ← scanExponent cs
  return (⟨negative, whole, fraction, exponent⟩, cs)

/-- White space between tokens. -/
def isSpace (c : Char) : Bool := c == ' ' || c == '\n' || c == '\t' || c == '\r'

/-- Read one token. -/
def scanToken : List Char → Option (Token × List Char)
  | '\x7b' :: rest => some (.openObject, rest)
  | '\x7d' :: rest => some (.closeObject, rest)
  | '[' :: rest => some (.openArray, rest)
  | ']' :: rest => some (.closeArray, rest)
  | ':' :: rest => some (.colon, rest)
  | ',' :: rest => some (.comma, rest)
  | 'n' :: 'u' :: 'l' :: 'l' :: rest => some (.null, rest)
  | 't' :: 'r' :: 'u' :: 'e' :: rest => some (.bool true, rest)
  | 'f' :: 'a' :: 'l' :: 's' :: 'e' :: rest => some (.bool false, rest)
  | '"' :: rest => (scanString rest).map fun (pieces, r) => (.string pieces, r)
  | cs => (scanNumber cs).map fun (literal, r) => (.number literal, r)

/-- The tokens of a text, read with at most `fuel` steps; a step takes at
least one character. -/
def scanAll : Nat → List Char → Option (List Token)
  | _, [] => some []
  | 0, _ :: _ => none
  | fuel + 1, c :: rest =>
    if isSpace c then scanAll fuel rest
    else (scanToken (c :: rest)).bind fun (token, r) =>
      (scanAll fuel r).map (token :: ·)

/-- The tokens of a text, or none when some part of it is no token. -/
def tokens? (cs : List Char) : Option (List Token) := scanAll cs.length cs

end Lockstep.Json
