import Lockstep.Value.Compact
set_option autoImplicit false

/-!
# Predicates

A predicate compares one field of a row with an operand.  A field that is
missing or null satisfies no predicate, not even "differs from".  Nothing is
converted: values of different JSON types are neither equal nor different nor
ordered.  Numbers are ordered by value, as integers when both are signed 64-bit
integers and as binary64 numbers otherwise; strings are ordered by code points.
-/

namespace Lockstep

/-- How a field is compared with the operand. -/
inductive Comparison where
  | eq
  | ne
  | ge
  | gt
  | le
  | lt
  deriving DecidableEq, Repr, Inhabited

/-- The sign of a comparison. -/
def Comparison.symbol : Comparison → String
  | .eq => "="
  | .ne => "<>"
  | .ge => ">="
  | .gt => ">"
  | .le => "<="
  | .lt => "<"

/-- Every comparison. -/
def Comparison.all : List Comparison := [.eq, .ne, .ge, .gt, .le, .lt]

/-- The comparison of a sign. -/
def Comparison.ofSymbol? (symbol : String) : Option Comparison :=
  all.find? fun c => c.symbol == symbol

theorem Comparison.ofSymbol?_symbol (c : Comparison) : ofSymbol? c.symbol = some c := by
  cases c <;> decide

/-- A comparison of one field with an operand. -/
structure Predicate where
  field : String
  comparison : Comparison
  operand : Value
  deriving Repr, Inhabited

/-- The order of two numbers. -/
def Number.order? (a b : Number) : Option Ordering :=
  match a.asSigned?, b.asSigned? with
  | some m, some n => some (compare m n)
  | _, _ =>
    match a.asBinary64?, b.asBinary64? with
    | some x, some y => some (x.order y)
    | _, _ => none

/-- The order of two values, if they are of one ordered type. -/
def Value.order? : Value → Value → Option Ordering
  | .number a, .number b => a.order? b
  | .string a, .string b => some (compare a b)
  | _, _ => none

/-- Whether a comparison holds between a value that is not null and an operand. -/
def Comparison.holds (c : Comparison) (value operand : Value) : Bool :=
  let ordered (accept : Ordering → Bool) :=
    ((value.order? operand).map accept).getD false
  match c with
  | .eq => value.equal operand
  | .ne => value.sameType operand && !value.equal operand
  | .ge => ordered Ordering.isGE
  | .gt => ordered Ordering.isGT
  | .le => ordered Ordering.isLE
  | .lt => ordered Ordering.isLT

namespace Predicate

/-- Whether a row satisfies the predicate. -/
def holds (p : Predicate) (row : Value) : Bool :=
  match row.get? p.field with
  | none | some .null => false
  | some value => p.comparison.holds value p.operand

/-- The predicate in words. -/
def describe (p : Predicate) : String :=
  p.field ++ " " ++ p.comparison.symbol ++ " " ++ p.operand.compact

/-- Whether a row satisfies every predicate of a list. -/
def allHold (ps : List Predicate) (row : Value) : Bool := ps.all fun p => p.holds row

end Predicate

end Lockstep
