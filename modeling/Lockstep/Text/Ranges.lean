set_option autoImplicit false

/-!
# Ranges of code points

A class of characters beyond ASCII is kept as a list of inclusive ranges of code points.
-/

namespace Lockstep.Text

/-- Whether some inclusive range holds the code point. -/
def inRanges (ranges : List (Nat × Nat)) (point : Nat) : Bool :=
  ranges.any fun range => range.1 ≤ point && point ≤ range.2

end Lockstep.Text
