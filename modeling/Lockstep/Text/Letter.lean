import Lockstep.Text.LetterRanges
import Lockstep.Text.Ranges
set_option autoImplicit false

/-!
# Letters, numerals and the characters of a word

A word starts with a letter or an underscore and goes on with letters, numerals
and underscores.  Letters are the characters with the Unicode property
Alphabetic, numerals those of the general categories Nd, Nl and No; ASCII is
decided without the tables.
-/

namespace Lockstep.Text

/-- A character with the property Alphabetic. -/
def isLetter (c : Char) : Bool :=
  if c.toNat < 128 then c.isAlpha else inRanges letterRanges c.toNat

/-- A decimal digit, letter number or other number. -/
def isNumeral (c : Char) : Bool :=
  if c.toNat < 128 then c.isDigit else inRanges numeralRanges c.toNat

/-- A character that can start a word. -/
def startsWord (c : Char) : Bool := isLetter c || c == '_'

/-- A character that can go on with a word. -/
def continuesWord (c : Char) : Bool := isLetter c || isNumeral c || c == '_'

theorem continuesWord_of_startsWord {c : Char} (h : startsWord c = true) :
    continuesWord c = true := by
  simp only [startsWord, continuesWord, Bool.or_eq_true] at h ⊢
  exact h.elim (fun l => .inl (.inl l)) .inr

end Lockstep.Text
