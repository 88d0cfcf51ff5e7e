import Lockstep.Value.Basic
set_option autoImplicit false

/-!
# Number literals of JSON texts

A literal without point and exponent is an integer while it fits into 64 bits: up
to `2 ^ 64 - 1` above zero and down to `-2 ^ 63` below.  Every other literal, `-0`
among them, is a binary64 number, read in two roundings: the leading digits that
fit into a 64-bit word are rounded to a binary64 number, and that is multiplied or
divided by a power of ten.  A result that is not finite is refused.
-/

namespace Lockstep

/-- A number literal, its digits as written. -/
structure NumberLiteral where
  negative : Bool
  whole : List Char
  fraction : Option (List Char)
  /-- the sign of the exponent (true below zero) and its digits -/
  exponent : Option (Bool × List Char)
  deriving DecidableEq, Repr, Inhabited

namespace NumberLiteral

/-- The largest 64-bit word. -/
def maxWord : Nat := 0xFFFFFFFFFFFFFFFF

/-- The value of a decimal digit. -/
def digitValue (c : Char) : Nat := c.toNat - '0'.toNat

/-- The natural number that digits stand for. -/
def digitsValue (digits : List Char) : Nat :=
  digits.foldl (fun n c => n * 10 + digitValue c) 0

/-- Append digits to a word while it does not overflow: the word, and the
digits left over. -/
def absorb : Nat → List Char → Nat × List Char
  | word, [] => (word, [])
  | word, c :: rest =>
    let next := word * 10 + digitValue c
    if next ≤ maxWord then absorb next rest else (word, c :: rest)

/-- Multiply or divide by a power of ten, steps of `10 ^ 308` first.  Fails when
the result is too large. -/
def rescale (f : Binary64) (exponent : Int) : Option Binary64 :=
  if exponent.natAbs ≤ 308 then
    (Binary64.ofDecimal? false 1 exponent.natAbs).bind fun power =>
      if 0 ≤ exponent then f.mul? power else f.div? power
  else if f.units = 0 then some f
  else if 0 ≤ exponent then none
  else ((Binary64.ofDecimal? false 1 308).bind f.div?).bind fun g =>
    rescale g (exponent + 308)
  termination_by exponent.natAbs
  decreasing_by omega

/-- `significand * 10 ^ exponent` in two roundings. -/
def scaled (negative : Bool) (significand : Nat) (exponent : Int) : Option Number :=
  ((Binary64.ofInt? significand).bind fun f => rescale f exponent).map fun f =>
    .float ⟨negative, f.units, f.fits⟩

/-- The exponent part, or none when its digits leave the 32-bit range. -/
def exponentValue? : Option (Bool × List Char) → Option Int
  | none => some 0
  | some (below, digits) =>
    let n := digitsValue digits
    if n < 0x80000000 then some (if below then -n else n) else none

/-- The float that a literal with this significand and scale stands for.  An
exponent out of range makes zero of a significand zero and of every number when
it lies below zero. -/
def floatValue? (l : NumberLiteral) (significand : Nat) (scale : Int) : Option Number :=
  match exponentValue? l.exponent with
  | some exponent => scaled l.negative significand (scale + exponent)
  | none =>
    if significand = 0 ∨ (l.exponent.map (·.1)) = some true then
      some (.float (Binary64.zero l.negative))
    else none

/-- The number that a literal stands for, or none when it is out of range. -/
def value? (l : NumberLiteral) : Option Number :=
  let (word, beyond) := absorb 0 l.whole
  match l.fraction with
  | some digits =>
    let (word', beyond') := absorb word digits
    let taken : Int := digits.length - beyond'.length
    floatValue? l word' (beyond.length - taken)
  | none =>
    if beyond = [] ∧ l.exponent = none then
      if !l.negative then some (.int word)
      else if 1 ≤ word ∧ word ≤ 0x8000000000000000 then some (.int (-word))
      else scaled true word 0
    else floatValue? l word beyond.length

end NumberLiteral

end Lockstep
