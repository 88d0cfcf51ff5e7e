import Lockstep.Batch.Basic
set_option autoImplicit false

/-!
# Rounds

A round moves the common scan of a batch by at most one row and shows that row
to every member.

1. Members pull in order until one of them moves the scan.  A member that ends
  without moving it hands the pull on to the next one.
2. The members after that read what the pull gave.

A transient failure while the scan has not moved aborts the round, and the round
can be tried again.  Every other failure breaks the batch.
-/

namespace Lockstep

/-- How a round ended. -/
inductive RoundEnd where
  /-- every member was stepped -/
  | completed
  /-- a transient failure, and the scan did not move -/
  | aborted (failure : Failure)
  /-- the batch cannot go on -/
  | broken (failure : Failure)
  | crashed (crash : Crash)
  deriving DecidableEq, Repr, Inhabited

namespace Batch

/-- Whether the scan has moved since it had been pulled `before` times, or
cannot move any more. -/
def scanMoved (id : CursorId) (before : Nat) (s : Scans) : Bool :=
  (s.cursor id).pulls != before || (s.cursor id).isExhausted

/-- Where the pulling part of a round got to. -/
structure Pulled where
  /-- how the round ended, if it ended there -/
  ending : Option RoundEnd
  /-- members that were stepped -/
  stepped : List Operation
  /-- members that were not -/
  waiting : List Operation
  scans : Scans
  deriving Repr, Inhabited

/-- Let members pull until the scan moves. -/
def pullPhase (id : CursorId) (before : Nat) : List Operation → Scans → Pulled
  | [], s => ⟨none, [], [], s⟩
  | op :: ops, s =>
    match op.step false s with
    | (.error (.crashed crash), op, s) => ⟨some (.crashed crash), [op], ops, s⟩
    | (.error (.failed f), op, s) =>
      let ending := if f.isTransient && !scanMoved id before s then .aborted f
        else .broken f
      ⟨some ending, [op], ops, s⟩
    | (.ok result, op, s) =>
      if result = .finished ∧ scanMoved id before s = false then
        let more := pullPhase id before ops s
        { more with stepped := op :: more.stepped }
      else ⟨none, [op], ops, s⟩

/-- Pulling neither loses nor adds a member. -/
theorem length_pullPhase (id : CursorId) (before : Nat) (ops : List Operation) (s : Scans) :
    (pullPhase id before ops s).stepped.length +
      (pullPhase id before ops s).waiting.length =
      ops.length := by
  induction ops generalizing s with
  | nil => rfl
  | cons op ops ih =>
    unfold pullPhase
    split
    · exact Nat.add_comm _ _
    · exact Nat.add_comm _ _
    · rename_i after _
      split
      · have h := ih after
        simp only [List.length_cons]
        omega
      · exact Nat.add_comm _ _

/-- Let members read what the pull gave. -/
def readPhase : List Operation → Scans → RoundEnd × List Operation × Scans
  | [], s => (.completed, [], s)
  | op :: ops, s =>
    match op.step true s with
    | (.error (.crashed crash), op, s) => (.crashed crash, op :: ops, s)
    | (.error (.failed f), op, s) => (.broken f, op :: ops, s)
    | (.ok _, op, s) =>
      let (ending, ops, s) := readPhase ops s
      (ending, op :: ops, s)

theorem length_readPhase (ops : List Operation) (s : Scans) :
    (readPhase ops s).2.1.length = ops.length := by
  induction ops generalizing s with
  | nil => rfl
  | cons op ops ih =>
    unfold readPhase
    split
    · rfl
    · rfl
    · exact congrArg (· + 1) (ih _)

/-- Run one round: how it ended, and the members and scans afterwards. -/
def round (members : List Operation) (s : Scans) : RoundEnd × List Operation × Scans :=
  match members with
  | [] => (.completed, [], s)
  | first :: _ =>
    let id := first.pipeline.cursor
    let pulled := pullPhase id (s.cursor id).pulls members s
    match pulled.ending with
    | some ending => (ending, pulled.stepped ++ pulled.waiting, pulled.scans)
    | none =>
      let (ending, read, s) := readPhase pulled.waiting pulled.scans
      (ending, pulled.stepped ++ read, s)

theorem length_round (members : List Operation) (s : Scans) :
    (round members s).2.1.length = members.length := by
  unfold round
  split
  · rfl
  · rename_i first others
    have h := length_pullPhase first.pipeline.cursor
      (s.cursor first.pipeline.cursor).pulls (first :: others) s
    dsimp only
    split
    · exact (List.length_append ..).trans h
    · refine (List.length_append ..).trans ?_
      rw [length_readPhase]
      exact h

end Batch

end Lockstep
