import Lockstep.Operation
set_option autoImplicit false

/-!
# The queue of pending operations

Operations wait here in the order of their sequence numbers, which the queue
hands out.  A batch takes a run of operations from the front that were never
stepped, or a single one that was: an operation whose scan has moved cannot
follow another scan.
-/

namespace Lockstep

/-- The operations that wait, and the next sequence number. -/
structure Queue where
  operations : List Operation := []
  nextSequence : Nat := 0
  deriving Repr, Inhabited

namespace Queue

/-- How many operations wait. -/
def size (q : Queue) : Nat := q.operations.length

/-- Append an operation under the next sequence number. -/
def enqueue (q : Queue) (query : String) (pipeline : Pipeline) : Nat × Queue :=
  (q.nextSequence,
    { operations := q.operations ++ [⟨q.nextSequence, query, pipeline⟩]
      nextSequence := q.nextSequence + 1 })

/-- How many operations the next batch takes. -/
def batchSize (max : Nat) : List Operation → Nat
  | [] => 0
  | front :: rest =>
    if front.isStarted then 1
    else (((front :: rest).take max).takeWhile fun op => !op.isStarted).length

/-- Take the operations of the next batch, at most `max` unless the
front one goes alone. -/
def drainBatch (q : Queue) (max : Nat) : List Operation × Queue :=
  let count := batchSize max q.operations
  (q.operations.take count, { q with operations := q.operations.drop count })

/-- Take every operation. -/
def drainAll (q : Queue) : List Operation × Queue :=
  (q.operations, { q with operations := [] })

/-- Put operations back at the front. -/
def restoreFront (q : Queue) (operations : List Operation) : Queue :=
  { q with operations := operations ++ q.operations }

/-- Take the operation at an index, if there is one. -/
def takeAt? (q : Queue) (index : Nat) : Option (Operation × Queue) :=
  q.operations[index]?.map fun op =>
    (op, { q with operations := q.operations.eraseIdx index })

/-- Put an operation back at an index, or at the end if the queue is shorter now. -/
def reinsert (q : Queue) (index : Nat) (op : Operation) : Queue :=
  { q with operations := q.operations.insertIdx (min index q.operations.length) op }

/-- A batch is a run from the front: what it takes, followed by what
stays, is the queue. -/
theorem drainBatch_append (q : Queue) (max : Nat) :
    (q.drainBatch max).1 ++ (q.drainBatch max).2.operations = q.operations :=
  List.take_append_drop _ _

/-- Putting a drained batch back at once undoes the drain. -/
theorem restoreFront_drainBatch (q : Queue) (max : Nat) :
    (q.drainBatch max).2.restoreFront (q.drainBatch max).1 = q := by
  have h := q.drainBatch_append max
  cases q
  simp only [restoreFront, drainBatch] at h ⊢
  rw [h]

/-- An operation is taken from an index exactly if there is one, and leaves the
others in order. -/
theorem takeAt?_eq_some_iff {q rest : Queue} {index : Nat} {op : Operation} :
    q.takeAt? index = some (op, rest) ↔
      q.operations[index]? = some op ∧
        rest = { q with operations := q.operations.eraseIdx index } := by
  unfold takeAt?
  cases q.operations[index]? with
  | none => simp
  | some found =>
    simp only [Option.map_some, Option.some.injEq, Prod.mk.injEq]
    exact and_congr_right fun _ => eq_comm

end Queue

end Lockstep
