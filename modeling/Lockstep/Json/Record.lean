import Lockstep.Json.Document
set_option autoImplicit false

/-!
# Records in JSON documents

A record with named fields is written as an object, or as an array of the fields
in their order with some of the last ones left out.  Of an object, unknown
members are skipped, whatever they hold, and a known one may occur only once.
-/

namespace Lockstep.Json

/-- The member of an object with a name, if it occurs once or not at all. -/
def member? (name : String) (members : List (String × Document)) :
    Option (Option Document) :=
  match members.filter fun m => m.1 == name with
  | [] => some none
  | [m] => some (some m.2)
  | _ => none

/-- The members of an object by their names; fails if a name has a lone surrogate. -/
def named? (members : List (List Piece × Document)) :
    Option (List (String × Document)) :=
  members.mapM fun m => (text? m.1).map fun name => (name, m.2)

namespace Document

/-- The fields of a record in the order of `names`, none for one that is left out. -/
def fields? (names : List String) : Document → Option (List (Option Document))
  | .object members => do
    let members ← named? members
    names.mapM fun name => member? name members
  | .array items =>
    if items.length ≤ names.length then
      some (items.map some ++ List.replicate (names.length - items.length) none)
    else none
  | _ => none

/-- A natural number up to `max`, written as an integer. -/
def nat? (max : Nat) : Document → Option Nat
  | .number literal =>
    match literal.value? with
    | some (.int n) => if 0 ≤ n ∧ n.toNat ≤ max then some n.toNat else none
    | _ => none
  | _ => none

/-- A string. -/
def string? : Document → Option String
  | .string pieces => text? pieces
  | _ => none

/-- An array of strings. -/
def strings? : Document → Option (List String)
  | .array items => items.mapM string?
  | _ => none

/-- The members of an object as values, with room for `depth` levels
below the object. -/
def map? (depth : Nat) : Document → Option Fields
  | .object members => (membersToFields? members depth).map Fields.ofList
  | _ => none

end Document

/-- A field that may be left out: its default, or what it is read as. -/
def orDefault {α : Type} (default : α) (read : Document → Option α) :
    Option Document → Option α
  | none => some default
  | some document => read document

end Lockstep.Json
