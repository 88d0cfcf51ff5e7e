import Lockstep.Binary64.Basic
set_option autoImplicit false

/-!
# Shortest decimal text of a binary64 number

The digits are the fewest that read back as the number; of several choices of
that length, the one nearest to the number, an exact tie going to the even
digit.  They are found in exact arithmetic: for each count of digits the two
decimals around the value are tested against the interval of reals that round to
it.

The layout is positional while the leading digit stands for `10 ^ -5` up to
`10 ^ 15`, and otherwise one digit, a point, the rest and a signed exponent.
-/

namespace Lockstep

/-- A decimal `digits * 10 ^ exponent`. -/
structure Decimal where
  digits : Nat
  exponent : Int
  deriving DecidableEq, Repr, Inhabited

namespace Decimal

/-- Move trailing zeros of the digits into the exponent, at most `count` of them. -/
def strip : Nat → Decimal → Decimal
  | 0, d => d
  | count + 1, d =>
    if d.digits ≠ 0 ∧ d.digits % 10 = 0 then strip count ⟨d.digits / 10, d.exponent + 1⟩ else d

end Decimal

namespace Binary64

/-- Whether the units lie below `10 ^ k`. -/
def belowPower (units : Nat) (k : Int) : Bool :=
  units * Nat.pow 10 (-k).toNat < unitsPerOne * Nat.pow 10 k.toNat

/-- The least `k` with the value below `10 ^ k`: read off the binary logarithm,
which leaves at most a step of doubt. -/
def decimalScale (units : Nat) : Int :=
  let bits : Int := (units.log2 : Int) - 1073
  let guess := bits * 30103 / 100000
  ([guess - 1, guess, guess + 1].find? (belowPower units)).getD (guess + 2)

/-- Whether `d` lies among the reals that round to `units`.  The gap below a
power of two is half the gap above it, and the ends belong to the interval when
the significand is even. -/
def readsBack (units : Nat) (d : Decimal) : Bool :=
  let weight := lastBit units
  let significand := units / weight
  let low := if significand = 0x10000000000000 ∧ 1 < weight then 4 * units - weight
    else 4 * units - 2 * weight
  let high := 4 * units + 2 * weight
  let decimal := d.digits * Nat.pow 10 d.exponent.toNat * (4 * unitsPerOne)
  let scale := Nat.pow 10 (-d.exponent).toNat
  if significand % 2 = 0 then low * scale ≤ decimal ∧ decimal ≤ high * scale
  else low * scale < decimal ∧ decimal < high * scale

/-- The best decimal on the grid of `count` digits, if one of the two around the
value reads back. -/
def onGrid (units : Nat) (scale : Int) (count : Nat) : Option Decimal :=
  let exponent := scale - count
  let num := units * Nat.pow 10 (-exponent).toNat
  let den := unitsPerOne * Nat.pow 10 exponent.toNat
  let below : Decimal := ⟨num / den, exponent⟩
  let above : Decimal := ⟨num / den + 1, exponent⟩
  match readsBack units below, readsBack units above with
  | true, true => some ⟨roundQuotient num den, exponent⟩
  | true, false => some below
  | false, true => some above
  | false, false => none

/-- The digits of a nonzero magnitude.  Seventeen digits always suffice; the
exact value stands behind them. -/
def shortest (units : Nat) : Decimal :=
  let scale := decimalScale units
  let found := (List.range 17).findSome? fun i => onGrid units scale (i + 1)
  (found.getD ⟨units * Nat.pow 5 1074, -1074⟩).strip 800

/-- Zeros in a row. -/
def zeros (count : Nat) : String := "".pushn '0' count

/-- Lay out a decimal, positionally or with an exponent. -/
def layout (d : Decimal) : String :=
  let digits := toString d.digits
  let point : Int := digits.length + d.exponent
  if -5 < point ∧ point ≤ 16 then
    if 0 ≤ d.exponent then digits ++ zeros d.exponent.toNat ++ ".0"
    else if 0 < point then
      String.ofList (digits.toList.take point.toNat) ++ "." ++
        String.ofList (digits.toList.drop point.toNat)
    else "0." ++ zeros (-point).toNat ++ digits
  else
    let lead := String.ofList (digits.toList.take 1)
    let rest := String.ofList (digits.toList.drop 1)
    let fraction := if rest.isEmpty then "" else "." ++ rest
    let exponent := point - 1
    let sign := if exponent < 0 then "-" else "+"
    lead ++ fraction ++ "e" ++ sign ++ toString exponent.natAbs

/-- The text of a number: a sign when it is negative, zero included, then the
shortest digits. -/
def text (a : Binary64) : String :=
  let sign := if a.negative then "-" else ""
  if a.units = 0 then sign ++ "0.0" else sign ++ layout (shortest a.units)

end Binary64

end Lockstep
