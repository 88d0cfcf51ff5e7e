set_option autoImplicit false

/-!
# Quoted text

A text between double quotes, with some characters written as escapes.  Which
characters, and how, is the caller's choice; the escapes of JSON texts and of
log lines differ.
-/

namespace Lockstep.Text

/-- A lower-case hexadecimal digit. -/
def hexDigit (n : Nat) : Char := (Nat.digitChar (n % 16))

/-- `\u` and four hexadecimal digits, for a code point below `2 ^ 16`. -/
def unicodeEscape (c : Char) : List Char :=
  let n := c.toNat
  ['\\', 'u', hexDigit (n / 4096), hexDigit (n / 256), hexDigit (n / 16), hexDigit n]

/-- The text between double quotes, each character written as `escape` says. -/
def quoted (escape : Char → List Char) (cs : List Char) : List Char :=
  '"' :: cs.flatMap escape ++ ['"']

end Lockstep.Text
