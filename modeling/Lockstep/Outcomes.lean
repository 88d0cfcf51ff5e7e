import Lockstep.Operation
set_option autoImplicit false

/-!
# Stored outcomes

Outcomes wait for their takers in the order of sequence numbers.  The store has
a capacity; what lies above it is dropped, the lowest sequence numbers first.
-/

namespace Lockstep

/-- Outcomes by increasing sequence number. -/
abbrev Outcomes := List Outcome

namespace Outcomes

/-- Store an outcome, in place of one with the same number. -/
def insert (outcome : Outcome) : List Outcome → List Outcome
  | [] => [outcome]
  | first :: rest =>
    if outcome.sequence < first.sequence then outcome :: first :: rest
    else if outcome.sequence = first.sequence then outcome :: rest
    else first :: insert outcome rest

/-- Drop the lowest numbers until at most `capacity` outcomes are left. -/
def trim (capacity : Nat) (outcomes : List Outcome) : List Outcome :=
  outcomes.drop (outcomes.length - capacity)

/-- Store an outcome and keep to the capacity: the outcomes, and how
many were dropped. -/
def store (capacity : Nat) (outcome : Outcome) (outcomes : List Outcome) :
    List Outcome × Nat :=
  let all := insert outcome outcomes
  (trim capacity all, all.length - capacity)

/-- Take the outcome with a number. -/
def take? (sequence : Nat) (outcomes : List Outcome) :
    Option (Outcome × List Outcome) :=
  (outcomes.find? fun o => o.sequence == sequence).map fun o =>
    (o, outcomes.filter fun o => o.sequence != sequence)

theorem mem_insert_self (outcome : Outcome) (outcomes : List Outcome) :
    outcome ∈ insert outcome outcomes := by
  induction outcomes with
  | nil => exact List.mem_cons_self
  | cons first rest ih =>
    unfold insert
    split
    · exact List.mem_cons_self
    · split
      · exact List.mem_cons_self
      · exact List.mem_cons_of_mem _ ih

/-- The store never holds more than its capacity. -/
theorem length_trim_le (capacity : Nat) (outcomes : List Outcome) :
    (trim capacity outcomes).length ≤ capacity := by
  unfold trim
  rw [List.length_drop]
  omega

end Outcomes

end Lockstep
