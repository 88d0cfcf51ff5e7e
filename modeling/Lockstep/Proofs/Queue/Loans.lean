import Lockstep.Queue
import Mathlib.Data.List.InsertIdx
set_option autoImplicit false

/-!
# Operations on loan

Clients of one queue take operations out, a batch from the front or a single one
from an index, and may put back what they took: the batch at the front, the single
operation at the index that it came from.  Their calls come in any order.

A loan is put back by position, so its place is right as long as the queue looks
as it did when the loan was made, up to operations that came behind.  That is so
when the latest loan comes back first, and the queue then stays in the order of
sequence numbers.  Loans that overlap otherwise can come back in the wrong place.
-/

namespace Lockstep

/-- What a client has taken out of a queue. -/
inductive Loan where
  /-- operations from the front -/
  | batch (operations : List Operation)
  /-- the operation that stood at an index -/
  | single (index : Nat) (operation : Operation)
  deriving Repr, Inhabited

/-- Put a loan back where it came from; a single operation may have been stepped. -/
def Loan.putBack (stepped : Pipeline → Pipeline) (q : Queue) : Loan → Queue
  | .batch operations => q.restoreFront operations
  | .single index op => q.reinsert index { op with pipeline := stepped op.pipeline }

/-- A call of some client of a queue. -/
inductive QueueCall where
  | enqueue (query : String) (pipeline : Pipeline)
  | drainBatch (max : Nat)
  | takeAt (index : Nat)
  /-- put back the loan at a place, the latest standing at zero -/
  | putBack (place : Nat) (stepped : Pipeline → Pipeline)

/-- A queue and what its clients have taken out of it, the latest loan first. -/
structure Lending where
  queue : Queue := {}
  loans : List Loan := []
  deriving Repr, Inhabited

/-- Whether operations wait in the order of their sequence numbers. -/
def Queue.InOrder (q : Queue) : Prop :=
  (q.operations.map Operation.sequence).Pairwise (· < ·)

namespace Lending

/-- Answer one call.  A call that finds nothing to take or to put back
changes nothing. -/
def answer (l : Lending) : QueueCall → Lending
  | .enqueue query pipeline => { l with queue := (l.queue.enqueue query pipeline).2 }
  | .drainBatch max =>
    let (operations, queue) := l.queue.drainBatch max
    { queue := queue, loans := .batch operations :: l.loans }
  | .takeAt index =>
    match l.queue.takeAt? index with
    | none => l
    | some (op, queue) => { queue := queue, loans := .single index op :: l.loans }
  | .putBack place stepped =>
    match l.loans[place]? with
    | none => l
    | some loan =>
      { queue := loan.putBack stepped l.queue, loans := l.loans.eraseIdx place }

/-- Answer calls in order. -/
def answerAll (l : Lending) (calls : List QueueCall) : Lending := calls.foldl answer l

/-! ## What is owed to the queue -/

/-- `Owed loans waiting whole`: putting back the loans, the latest first, would
complete the numbers `waiting` to `whole`, with no index beyond the end. -/
inductive Owed : List Loan → List Nat → List Nat → Prop
  | none (waiting : List Nat) : Owed [] waiting waiting
  | batch {operations : List Operation} {loans : List Loan} {waiting whole : List Nat}
      (rest : Owed loans (operations.map Operation.sequence ++ waiting) whole) :
      Owed (.batch operations :: loans) waiting whole
  | single {index : Nat} {op : Operation} {loans : List Loan} {waiting whole : List Nat}
      (fits : index ≤ waiting.length)
      (rest : Owed loans (waiting.insertIdx index op.sequence) whole) :
      Owed (.single index op :: loans) waiting whole

variable {loans : List Loan} {waiting whole : List Nat}

/-- What waits keeps its order when the loans are put back. -/
theorem Owed.sublist (h : Owed loans waiting whole) : waiting.Sublist whole := by
  induction h with
  | none waiting => exact .refl waiting
  | batch rest ih => exact (List.sublist_append_right _ _).trans ih
  | single fits rest ih => exact (List.sublist_insertIdx _ _ _).trans ih

theorem insertIdx_concat {index : Nat} {numbers : List Nat} (h : index ≤ numbers.length)
    (n m : Nat) :
    (numbers ++ [m]).insertIdx index n = numbers.insertIdx index n ++ [m] := by
  induction numbers generalizing index with
  | nil =>
    obtain rfl : index = 0 := Nat.le_zero.mp h
    rfl
  | cons first rest ih =>
    cases index with
    | zero => rfl
    | succ index => exact congrArg (first :: ·) (ih (Nat.le_of_succ_le_succ h))

/-- A number that comes in behind all that waits stands behind the whole. -/
theorem Owed.concat (h : Owed loans waiting whole) (n : Nat) :
    Owed loans (waiting ++ [n]) (whole ++ [n]) := by
  induction h with
  | none waiting => exact .none _
  | batch rest ih =>
    refine .batch ?_
    rw [← List.append_assoc]
    exact ih
  | single fits rest ih =>
    refine .single (Nat.le_trans fits (List.length_append ▸ Nat.le_add_right _ _)) ?_
    rw [insertIdx_concat fits]
    exact ih

/-! ## Calls -/

/-- Putting back all loans would give a queue in order, with every number
handed out before. -/
def Settles (l : Lending) : Prop :=
  ∃ whole, Owed l.loans (l.queue.operations.map Operation.sequence) whole ∧
    whole.Pairwise (· < ·) ∧ ∀ n ∈ whole, n < l.queue.nextSequence

theorem Settles.inOrder {l : Lending} (h : l.Settles) : l.queue.InOrder := by
  obtain ⟨whole, howed, hsorted, -⟩ := h
  exact hsorted.sublist howed.sublist

theorem Settles.enqueue {l : Lending} (h : l.Settles) (query : String)
    (pipeline : Pipeline) :
    (l.answer (.enqueue query pipeline)).Settles := by
  obtain ⟨whole, howed, hsorted, hbelow⟩ := h
  refine ⟨whole ++ [l.queue.nextSequence], ?_, ?_, ?_⟩
  · have hnumbers :
      (l.answer (.enqueue query pipeline)).queue.operations.map Operation.sequence =
        l.queue.operations.map Operation.sequence ++ [l.queue.nextSequence] :=
          List.map_append
    rw [hnumbers]
    exact howed.concat _
  · refine List.pairwise_append.mpr ⟨hsorted, List.pairwise_singleton _ _, ?_⟩
    intro n hn last hlast
    rw [List.mem_singleton.mp hlast]
    exact hbelow n hn
  · intro n hn
    show n < l.queue.nextSequence + 1
    rcases List.mem_append.mp hn with hwhole | hlast
    · exact Nat.lt_succ_of_lt (hbelow n hwhole)
    · rw [List.mem_singleton.mp hlast]
      exact Nat.lt_succ_self _

/-- A batch that is taken out is owed to the front. -/
theorem Settles.drainBatch {l : Lending} (h : l.Settles) (max : Nat) :
    (l.answer (.drainBatch max)).Settles := by
  obtain ⟨whole, howed, hsorted, hbelow⟩ := h
  rw [← l.queue.drainBatch_append max, List.map_append] at howed
  exact ⟨whole, .batch howed, hsorted, hbelow⟩

/-- An operation that is taken out is owed to its index. -/
theorem Settles.takeAt {l : Lending} (h : l.Settles) (index : Nat) :
    (l.answer (.takeAt index)).Settles := by
  unfold answer
  dsimp only
  split
  · exact h
  · rename_i op queue htook
    obtain ⟨hop, rfl⟩ := Queue.takeAt?_eq_some_iff.mp htook
    obtain ⟨hindex, hop⟩ := List.getElem?_eq_some_iff.mp hop
    obtain ⟨whole, howed, hsorted, hbelow⟩ := h
    have hlength : index ≤ (l.queue.operations.eraseIdx index).length := by
      rw [List.length_eraseIdx_of_lt hindex]
      exact Nat.le_pred_of_lt hindex
    refine ⟨whole, .single (by rwa [List.length_map]) ?_, hsorted, hbelow⟩
    have hreturned : (l.queue.operations.eraseIdx index).insertIdx index op =
        l.queue.operations := by
      rw [← hop]
      exact List.insertIdx_eraseIdx_getElem hindex
    rw [← List.map_insertIdx, hreturned]
    exact howed

/-- The latest loan comes back to where it is owed. -/
theorem Settles.putBack {l : Lending} (h : l.Settles) (stepped : Pipeline → Pipeline) :
    (l.answer (.putBack 0 stepped)).Settles := by
  obtain ⟨⟨operations, next⟩, loans⟩ := l
  obtain ⟨whole, howed, hsorted, hbelow⟩ := h
  cases howed with
  | none => exact ⟨_, .none _, hsorted, hbelow⟩
  | batch rest =>
    refine ⟨whole, ?_, hsorted, hbelow⟩
    rw [← List.map_append] at rest
    exact rest
  | @single index op loans _ _ fits rest =>
    rw [List.length_map] at fits
    refine ⟨whole, ?_, hsorted, hbelow⟩
    show Owed loans
      (List.map Operation.sequence (operations.insertIdx (min index operations.length)
      { op with pipeline := stepped op.pipeline })) whole
    rw [Nat.min_eq_left fits, List.map_insertIdx]
    exact rest

/-- Calls of any kind keep the account, as long as only the latest loan comes back. -/
theorem Settles.answerAll {l : Lending} (h : l.Settles) (calls : List QueueCall)
    (nested : ∀ place stepped, .putBack place stepped ∈ calls → place = 0) :
    (l.answerAll calls).Settles := by
  induction calls generalizing l with
  | nil => exact h
  | cons call calls ih =>
    refine ih ?_ fun place stepped hcall =>
      nested place stepped (List.mem_cons_of_mem _ hcall)
    cases call with
    | enqueue query pipeline => exact h.enqueue query pipeline
    | drainBatch max => exact h.drainBatch max
    | takeAt index => exact h.takeAt index
    | putBack place stepped =>
      obtain rfl := nested place stepped List.mem_cons_self
      exact h.putBack stepped

theorem settles_empty : Settles {} := ⟨[], .none [], .nil, List.forall_mem_nil _⟩

/-- However clients enqueue, take out and put back, the operations wait in the
order of their sequence numbers, and so does whatever a batch takes, as long as
every loan that comes back is the latest that is still out. -/
theorem inOrder_of_latest_back_first (calls : List QueueCall)
    (nested : ∀ place stepped, .putBack place stepped ∈ calls → place = 0) :
    let l := answerAll {} calls
    l.queue.InOrder ∧ ∀ max,
      ((l.queue.drainBatch max).1.map Operation.sequence).Pairwise (· < ·) := by
  have hsettles := settles_empty.answerAll calls nested
  refine ⟨hsettles.inOrder, ?_⟩
  intro max
  exact hsettles.inOrder.sublist ((List.take_sublist _ _).map _)

/-! ## Loans that overlap -/

/-- Accept three operations. -/
def threeWaiting : List QueueCall := List.replicate 3 (.enqueue "rows" default)

/-- One client steps the second operation on its own while another takes the first
as a batch and gives it up again; the operation comes back before the batch. -/
def steppedMeanwhile : List QueueCall :=
  threeWaiting ++
    [.takeAt 1, .drainBatch 1, .putBack 1 Pipeline.countStep, .putBack 0 id]

/-- Two clients take a batch each and give it up again in the order in
which they took it. -/
def crossedBatches : List QueueCall :=
  threeWaiting ++ [.drainBatch 1, .drainBatch 1, .putBack 1 id, .putBack 0 id]

/-- While a single operation is stepped it is the latest loan, and
comes back in order. -/
theorem inOrder_of_latest_back_first_stepped :
    let l := answerAll {}
      (threeWaiting ++ [.takeAt 1, .putBack 0 Pipeline.countStep, .drainBatch 1])
    l.queue.InOrder ∧ l.queue.operations.map Operation.sequence = [1, 2] := by
  refine ⟨(inOrder_of_latest_back_first _ ?_).1, by decide⟩
  intro place stepped hcall
  simp only [threeWaiting, List.replicate, List.cons_append, List.nil_append,
    List.mem_cons, List.not_mem_nil, reduceCtorEq, QueueCall.putBack.injEq, false_or,
    or_false] at hcall
  exact hcall.1

/-- Loans that come back in another order can leave the queue out of order, and
the next batch would be formed of operations out of order. -/
theorem not_inOrder_of_overlap :
    ¬ (∀ calls, (answerAll {} calls).queue.InOrder) ∧
      ¬ (∀ calls max,
        (((answerAll {} calls).queue.drainBatch max).1.map Operation.sequence).Pairwise
          (· < ·)) := by
  constructor
  · intro h
    have hnumbers :
      (answerAll {} steppedMeanwhile).queue.operations.map Operation.sequence =
        [0, 2, 1] := by decide
    have hsorted := h steppedMeanwhile
    rw [Queue.InOrder, hnumbers] at hsorted
    exact absurd hsorted (by decide)
  · intro h
    have hnumbers :
      ((answerAll {} crossedBatches).queue.drainBatch 9).1.map Operation.sequence =
        [1, 0, 2] := by decide
    have hsorted := h crossedBatches 9
    rw [hnumbers] at hsorted
    exact absurd hsorted (by decide)

end Lending

end Lockstep
