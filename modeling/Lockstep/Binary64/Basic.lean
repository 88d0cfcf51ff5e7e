set_option autoImplicit false

/-!
# Finite binary64 numbers

Every finite binary64 number is a whole multiple of `2 ^ -1074`, so a number is
kept as a sign and a count of those units.  Comparison is comparison of
integers, and rounding is one division of naturals: no operation here depends on
machine floating point.

* `Binary64.ofRatio?` is the number nearest to a fraction of units, ties going
  to the even significand; it fails exactly when the nearest number is not
  finite.
* `Binary64.order` compares by value, so the two zeros are equal.
-/

namespace Lockstep

/-- The finite numbers end at `2 ^ 1024`, which is `2 ^ 2098` units. -/
def Binary64.limitBits : Nat := 2098

/-- The units of the first power of two that is no longer finite. -/
def Binary64.unitLimit : Nat := Nat.pow 2 limitBits

theorem Binary64.unitLimit_pos : 0 < unitLimit := by
  unfold unitLimit
  generalize limitBits = bits
  exact Nat.two_pow_pos bits

/-- A count of units that a binary64 number can hold: at most 53 significant
bits, and below the limit of the finite numbers. -/
def Binary64.Fits (units : Nat) : Prop :=
  units < unitLimit ∧ units % Nat.pow 2 (units.log2 - 52) = 0

instance Binary64.decidableFits (units : Nat) : Decidable (Binary64.Fits units) :=
  inferInstanceAs (Decidable (_ ∧ _))

/-- A finite binary64 number: a sign and a magnitude in units of `2 ^ -1074`.
Zero has both signs. -/
structure Binary64 where
  negative : Bool
  units : Nat
  fits : Binary64.Fits units
  deriving DecidableEq, Repr

namespace Binary64

/-- How many units make one. -/
def unitsPerOne : Nat := Nat.pow 2 1074

/-- The zero of the given sign. -/
def zero (negative : Bool) : Binary64 := ⟨negative, 0, unitLimit_pos, Nat.zero_mod _⟩

instance : Inhabited Binary64 := ⟨zero false⟩

/-- Quotient to the nearest natural, a tie going to the even one. -/
def roundQuotient (num den : Nat) : Nat :=
  let quotient := num / den
  let twice := 2 * (num % den)
  if twice < den ∨ (twice = den ∧ quotient % 2 = 0) then quotient else quotient + 1

/-- The weight of the last significant bit of a magnitude of about `units`. -/
def lastBit (units : Nat) : Nat := Nat.pow 2 (units.log2 - 52)

/-- `num / den` units to 53 significant bits, nearest first and ties to even. -/
def nearestUnits (num den : Nat) : Nat :=
  let weight := lastBit (num / den)
  roundQuotient num (den * weight) * weight

/-- The number with exactly this many units, if there is one. -/
def ofUnits? (negative : Bool) (units : Nat) : Option Binary64 :=
  if fits : Fits units then some ⟨negative, units, fits⟩ else none

/-- The number nearest to `num / den` units, if it is finite. -/
def ofRatio? (negative : Bool) (num den : Nat) : Option Binary64 :=
  ofUnits? negative (nearestUnits num den)

/-- The number nearest to an integer, if it is finite. -/
def ofInt? (n : Int) : Option Binary64 :=
  ofRatio? (decide (n < 0)) (n.natAbs * unitsPerOne) 1

/-- The number nearest to `significand * 10 ^ exponent`, rounded once. -/
def ofDecimal? (negative : Bool) (significand : Nat) (exponent : Int) :
    Option Binary64 :=
  ofRatio? negative (significand * Nat.pow 10 exponent.toNat * unitsPerOne)
    (Nat.pow 10 (-exponent).toNat)

/-- The rounded product. -/
def mul? (a b : Binary64) : Option Binary64 :=
  ofRatio? (a.negative != b.negative) (a.units * b.units) unitsPerOne

/-- The rounded quotient of two numbers, the second not zero. -/
def div? (a b : Binary64) : Option Binary64 :=
  ofRatio? (a.negative != b.negative) (a.units * unitsPerOne) b.units

/-- The value in units. -/
def signedUnits (a : Binary64) : Int := if a.negative then -(a.units : Int) else a.units

/-- Order by value. -/
def order (a b : Binary64) : Ordering := compare a.signedUnits b.signedUnits

/-- Equality of values: the two zeros are equal. -/
def equal (a b : Binary64) : Bool := a.signedUnits == b.signedUnits

theorem equal_comm (a b : Binary64) : a.equal b = b.equal a := by
  simp only [equal, Bool.beq_comm]

theorem equal_self (a : Binary64) : a.equal a = true := by
  simp [equal]

end Binary64

end Lockstep
