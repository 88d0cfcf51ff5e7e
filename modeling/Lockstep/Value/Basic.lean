import Lockstep.Binary64.Basic
set_option autoImplicit false

/-!
# Values

Property values, rows and literals are all JSON values.  Integers and
floating-point numbers are kept apart: `1` and `1.0` are different values.  The
fields of an object are ordered by key, compared code point by code point, and
hold each key once; `Fields.insert` keeps both.
-/

namespace Lockstep

/-- A number: an integer, or a binary64 number that was written as one. -/
inductive Number where
  | int (value : Int)
  | float (value : Binary64)
  deriving DecidableEq, Repr, Inhabited

namespace Number

/-- The largest signed 64-bit integer. -/
def maxSigned : Int := 0x7FFFFFFFFFFFFFFF

/-- The number as a signed 64-bit integer, if it is one. -/
def asSigned? : Number → Option Int
  | .int n => if -maxSigned - 1 ≤ n ∧ n ≤ maxSigned then some n else none
  | .float _ => none

/-- The number as a binary64 number, rounded if need be. -/
def asBinary64? : Number → Option Binary64
  | .int n => Binary64.ofInt? n
  | .float f => some f

/-- Equality of numbers: an integer never equals a floating-point number. -/
def equal : Number → Number → Bool
  | .int a, .int b => a == b
  | .float a, .float b => a.equal b
  | _, _ => false

end Number

/-- A JSON value. -/
inductive Value where
  | null
  | bool (value : Bool)
  | number (value : Number)
  | string (text : String)
  | array (items : List Value)
  | object (fields : List (String × Value))
  deriving Repr, Inhabited

/-- The fields of an object, in increasing order of keys. -/
abbrev Fields := List (String × Value)

namespace Fields

/-- Bind a key, replacing what it was bound to. -/
def insert (key : String) (value : Value) : Fields → Fields
  | [] => [(key, value)]
  | (k, v) :: rest =>
    if key < k then (key, value) :: (k, v) :: rest
    else if key = k then (key, value) :: rest
    else (k, v) :: insert key value rest

/-- What a key is bound to. -/
def get? (fields : Fields) (key : String) : Option Value :=
  (fields.find? fun field => field.1 == key).map (·.2)

/-- Change what a key is bound to. -/
def modify (key : String) (change : Value → Value) (fields : Fields) : Fields :=
  fields.map fun field => if field.1 == key then (field.1, change field.2) else field

/-- Bind pairs one after the other: of two values for one key the later stays. -/
def ofList (pairs : List (String × Value)) : Fields :=
  pairs.foldl (fun fields pair => insert pair.1 pair.2 fields) []

theorem get?_insert_self (fields : Fields) (key : String) (value : Value) :
    get? (insert key value fields) key = some value := by
  induction fields with
  | nil => simp [insert, get?]
  | cons field rest ih =>
    obtain ⟨k, v⟩ := field
    simp only [insert]
    split
    · simp [get?]
    · split
      · simp [get?]
      · rename_i hne
        have hk : (k == key) = false := by
          simpa using fun h => hne h.symm
        simpa [get?, hk] using ih

end Fields

namespace Value

/-- An integer as a value. -/
def int (n : Int) : Value := .number (.int n)

/-- A natural number as a value. -/
def nat (n : Nat) : Value := .number (.int n)

/-- An object from its bindings, in any order. -/
def ofFields (pairs : List (String × Value)) : Value := .object (Fields.ofList pairs)

/-- The field of an object; other values have none. -/
def get? : Value → String → Option Value
  | .object fields, key => Fields.get? fields key
  | _, _ => none

/-- The text of a string. -/
def string? : Value → Option String
  | .string text => some text
  | _ => none

/-- The integer that a value is. -/
def int? : Value → Option Int
  | .number (.int n) => some n
  | _ => none

/-- The natural number that a value is. -/
def nat? (v : Value) : Option Nat :=
  v.int?.bind fun n => if 0 ≤ n then some n.toNat else none

/-- The truth value that a value is. -/
def bool? : Value → Option Bool
  | .bool b => some b
  | _ => none

/-- The items of an array; other values have none. -/
def items : Value → List Value
  | .array items => items
  | _ => []

/-- The fields of an object; other values have none. -/
def fields : Value → Fields
  | .object fields => fields
  | _ => []

/-- Change a field of an object; other values stay as they are. -/
def modify (key : String) (change : Value → Value) : Value → Value
  | .object fields => .object (Fields.modify key change fields)
  | v => v

/-- Whether the value is null. -/
def isNull : Value → Bool
  | .null => true
  | _ => false

/-- Whether two values have the same JSON type.  Integers and floats
are both numbers. -/
def sameType : Value → Value → Bool
  | .null, .null | .bool _, .bool _ | .number _, .number _ | .string _, .string _
  | .array _, .array _ | .object _, .object _ => true
  | _, _ => false

mutual

/-- Equality of values: by structure, with floats compared by value. -/
def equal : Value → Value → Bool
  | .null, .null => true
  | .bool a, .bool b => a == b
  | .number a, .number b => a.equal b
  | .string a, .string b => a == b
  | .array a, .array b => equalItems a b
  | .object a, .object b => equalFields a b
  | _, _ => false

/-- Equality item by item. -/
def equalItems : List Value → List Value → Bool
  | [], [] => true
  | a :: as, b :: bs => equal a b && equalItems as bs
  | _, _ => false

/-- Equality field by field. -/
def equalFields : List (String × Value) → List (String × Value) → Bool
  | [], [] => true
  | (j, a) :: as, (k, b) :: bs => j == k && equal a b && equalFields as bs
  | _, _ => false

end

end Value

end Lockstep
