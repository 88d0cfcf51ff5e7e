import Lockstep.Text.ExtendingRanges
import Lockstep.Text.Ranges
import Lockstep.Text.UnprintedRanges
set_option autoImplicit false

/-!
# Characters that show

A character is printable unless its general category is Other or Separator or it
has the property Default_Ignorable_Code_Point; the plain space is printable all
the same.  A mark with the property Grapheme_Extend is drawn together with the
character before it.  Only a printable character that extends nothing shows as a
sign of its own.
-/

namespace Lockstep.Text

/-- A character that is not of the categories Other or Separator nor default
ignorable, or the space. -/
def isPrintable (c : Char) : Bool :=
  if c.toNat < 128 then 0x20 ≤ c.toNat && c.toNat < 0x7F
  else !inRanges unprintedRanges c.toNat

/-- A mark with the property Grapheme_Extend. -/
def extendsGrapheme (c : Char) : Bool := inRanges extendingRanges c.toNat

/-- A character that shows as a sign of its own. -/
def showsAlone (c : Char) : Bool := isPrintable c && !extendsGrapheme c

theorem showsAlone_eq_false_of_lt {c : Char} (h : c.toNat < 0x20) :
    showsAlone c = false := by
  have ascii : c.toNat < 128 := by omega
  have low : ¬ 0x20 ≤ c.toNat := by omega
  simp [showsAlone, isPrintable, ascii, low]

end Lockstep.Text
