import Lockstep.Proofs.Batch.Formation
import Lockstep.Proofs.Pipeline.Alone
set_option autoImplicit false

/-!
# Dissolving a batch

A new batch that finds no room is dissolved: its operations go back to wait, and
are then stepped one at a time by fresh pulls, in any order.  Grouping has fed
all of them by the cursor of the first, and dissolving leaves them so.  The rows
of that cursor are then divided among them: each row goes to whoever pulled it,
and each operation makes what its chain yields of its own share.

An operation that was never grouped pulls a cursor of its own and gets every
row, so dissolving a batch of more than one operation does not undo forming it.
-/

namespace Lockstep

namespace Operation

/-- Step the operation at a place by a fresh pull.  Where none stands
nothing happens. -/
def stepAt (place : Nat) (ops : List Operation) (s : Scans) : List Operation × Scans :=
  match ops[place]? with
  | none => (ops, s)
  | some op => (ops.set place (op.step false s).2.1, (op.step false s).2.2)

/-- Step operations one at a time, whichever are at the given places. -/
def stepAll : List Nat → List Operation → Scans → List Operation × Scans
  | [], ops, s => (ops, s)
  | place :: places, ops, s =>
    stepAll places (stepAt place ops s).1 (stepAt place ops s).2

/-! ## One operation and its share -/

/-- The operation is what `origin` has become on a cursor, having been given a
share of its rows. -/
structure Given (id : CursorId) (origin : Operation) (share : List Value)
    (op : Operation) : Prop where
  sequence : op.sequence = origin.sequence
  query : op.query = origin.query
  cursor : op.pipeline.cursor = id
  sound : Link.IsSound op.pipeline.links
  rows : op.pipeline.rows.toList = origin.standalone share
  ahead : op.isFinished = false → ∀ rest,
    op.pipeline.promise rest = origin.standalone (share ++ rest)

namespace Given

variable {id : CursorId} {origin op : Operation} {share : List Value}

/-- An operation that is found over takes no part of the rows. -/
theorem stop (h : Given id origin share op) :
    Given id origin share (op.stop false) where
  sequence := h.sequence
  query := h.query
  cursor := (op.cursor_stop false).trans h.cursor
  sound := by
    unfold Operation.stop Pipeline.stop
    split
    · exact h.sound
    · exact h.sound
  rows := (congrArg Array.toList (Pipeline.rows_stop _)).trans h.rows
  ahead := by
    intro hlive
    have hfinished : (op.stop false).isFinished = true := Pipeline.finished_stop _
    rw [hfinished] at hlive
    cases hlive

theorem take_failed (h : Given id origin share op) (live : op.isOver = false)
    (i : Interruption) :
    Given id origin share (op.take false (.error i)).2 := by
  rw [take_failed_of_asks (Pipeline.asks_of_isSound h.sound live)]
  exact ⟨h.sequence, h.query, h.cursor, h.sound, h.rows, h.ahead⟩

theorem take_ended (h : Given id origin share op) (live : op.isOver = false) :
    Given id origin share (op.take false (.ok .ended)).2 := by
  have htake : (op.pipeline.setCached false).take (.ok .ended) =
      (.ok .finished, (op.pipeline.setCached false).countStep.finish) :=
    Pipeline.take_ended (p := op.pipeline.setCached false) h.sound live
  unfold take
  rw [htake]
  exact ⟨h.sequence, h.query, h.cursor, h.sound, h.rows, fun hlive => nomatch hlive⟩

/-- A row that is pulled joins the share. -/
theorem take_row (h : Given id origin share op) (live : op.isOver = false)
    (row : Value) :
    Given id origin (share ++ [row]) (op.take false (.ok (.row row))).2 := by
  have hlive : op.isFinished = false := Pipeline.finished_of_not_isOver live
  obtain ⟨⟨result, hresult⟩, hsound⟩ :=
    Pipeline.take_of_isSound (p := op.pipeline.setCached false) h.sound live (.row row)
  have hunfinished : (op.take false (.ok (.row row))).2.isFinished = false := by
    have htake : (op.pipeline.setCached false).take (.ok (.row row)) =
        (op.pipeline.setCached false).countStep.receive row :=
      Pipeline.take_of_asks (p := op.pipeline.setCached false)
        (Pipeline.asks_of_isSound h.sound live) _
    show ((op.pipeline.setCached false).take (.ok (.row row))).2.finished = false
    rw [htake]
    unfold Pipeline.receive
    dsimp only
    split <;> exact hlive
  have hpromise : ∀ rest, (op.take false (.ok (.row row))).2.pipeline.promise rest =
      origin.standalone (share ++ [row] ++ rest) := by
    intro rest
    refine (Pipeline.promise_take (p := op.pipeline.setCached false) live
      (.row row rest)
      hresult).trans ?_
    rw [List.append_assoc]
    exact h.ahead hlive (row :: rest)
  refine ⟨h.sequence, h.query, (op.cursor_take false _).trans h.cursor, hsound, ?_,
    fun _ => hpromise⟩
  -- with nothing to come the promise is the rows
  have hnone := hpromise []
  rw [List.append_nil] at hnone
  rw [← hnone]
  unfold Pipeline.promise
  rw [Link.yield_nil, ite_self, List.append_nil]

end Given

theorem Unstarted.given {s : Scans} {op : Operation} (h : op.Unstarted s)
    (sound : Link.IsSound op.pipeline.links) (id : CursorId) (cached : Bool) :
    Given id op [] (op.fedBy id cached) where
  sequence := rfl
  query := rfl
  cursor := rfl
  sound := sound
  rows := by
    unfold standalone
    rw [Link.yield_nil]
    exact congrArg Array.toList h.rows
  ahead := fun _ rest => h.promise id cached rest

/-! ## The rows of one cursor, divided -/

/-- The rows that were taken from a place. -/
def shareOf (place : Nat) (taken : List (Nat × Value)) : List Value :=
  (taken.filter fun entry => entry.1 = place).map Prod.snd

theorem shareOf_concat_self (place : Nat) (taken : List (Nat × Value)) (row : Value) :
    shareOf place (taken ++ [(place, row)]) = shareOf place taken ++ [row] := by
  unfold shareOf
  rw [List.filter_append, List.map_append, List.filter_cons_of_pos (by simp)]
  rfl

theorem shareOf_concat_of_ne {place other : Nat} (h : other ≠ place)
    (taken : List (Nat × Value)) (row : Value) :
    shareOf place (taken ++ [(other, row)]) = shareOf place taken := by
  unfold shareOf
  rw [List.filter_append, List.filter_cons_of_neg (by simpa using h), List.filter_nil,
    List.append_nil]

/-- The operations are what `origins` have become, having divided the rows of a
cursor: those `taken`, in the order in which they were pulled and each with the
place it went to, and those still to come. -/
structure Divided (id : CursorId) (origins : List Operation) (rows : List Value)
    (taken : List (Nat × Value)) (ops : List Operation) (s : Scans) : Prop where
  isOpen : s.IsOpen id
  rows : taken.map Prod.snd ++ s.upcoming id = rows
  placed : ∀ entry ∈ taken, entry.1 < origins.length
  length : ops.length = origins.length
  each : ∀ place origin op, origins[place]? = some origin → ops[place]? = some op →
    Given id origin (shareOf place taken) op

namespace Divided

variable {id : CursorId} {origins ops : List Operation} {rows : List Value}
  {taken : List (Nat × Value)} {s : Scans}

theorem set_kept (h : Divided id origins rows taken ops s) {s' : Scans} {place : Nat}
    {op op' : Operation} (hop : ops[place]? = some op) (hopen : s'.IsOpen id)
    (hupcoming : s'.upcoming id = s.upcoming id)
    (hgiven : ∀ origin share, Given id origin share op → Given id origin share op') :
    Divided id origins rows taken (ops.set place op') s' := by
  refine ⟨hopen, hupcoming ▸ h.rows, h.placed, List.length_set.trans h.length, ?_⟩
  intro other origin found horigin hfound
  by_cases hplace : place = other
  · subst hplace
    rw [List.getElem?_set_self (List.getElem?_eq_some_iff.mp hop).1] at hfound
    cases hfound
    exact hgiven origin _ (h.each place origin op horigin hop)
  · rw [List.getElem?_set_ne hplace] at hfound
    exact h.each other origin found horigin hfound

/-- Put what an operation has become into its place, when it has pulled a row. -/
theorem set_row (h : Divided id origins rows taken ops s) {s' : Scans} {place : Nat}
    {op op' : Operation} {row : Value} (hop : ops[place]? = some op)
    (hopen : s'.IsOpen id) (hupcoming : s.upcoming id = row :: s'.upcoming id)
    (hgiven : ∀ origin share, Given id origin share op →
      Given id origin (share ++ [row]) op') :
    Divided id origins rows (taken ++ [(place, row)]) (ops.set place op') s' := by
  have hplace := (List.getElem?_eq_some_iff.mp hop).1
  refine ⟨hopen, ?_, ?_, List.length_set.trans h.length, ?_⟩
  · rw [← h.rows, hupcoming, List.map_append, List.append_assoc]
    rfl
  · exact List.forall_mem_append.mpr
      ⟨h.placed, List.forall_mem_singleton.mpr (h.length ▸ hplace)⟩
  · intro other origin found horigin hfound
    by_cases hother : place = other
    · subst hother
      rw [List.getElem?_set_self hplace] at hfound
      cases hfound
      rw [shareOf_concat_self]
      exact hgiven origin _ (h.each place origin op horigin hop)
    · rw [List.getElem?_set_ne hother] at hfound
      rw [shareOf_concat_of_ne hother]
      exact h.each other origin found horigin hfound

/-- A step gives the next row to the operation that was stepped, or to nobody. -/
theorem stepAt (h : Divided id origins rows taken ops s) (place : Nat) :
    ∃ taken',
      Divided id origins rows taken' (stepAt place ops s).1 (stepAt place ops s).2 := by
  unfold Operation.stepAt
  cases hop : ops[place]? with
  | none => exact ⟨taken, h⟩
  | some op =>
    obtain ⟨origin, horigin⟩ : ∃ origin, origins[place]? = some origin := by
      refine ⟨_, List.getElem?_eq_getElem ?_⟩
      exact h.length ▸ (List.getElem?_eq_some_iff.mp hop).1
    have hcursor := (h.each place origin op horigin hop).cursor
    cases hover : op.isOver with
    | true =>
      simp only [op.step_of_isOver hover]
      exact ⟨taken, h.set_kept hop h.isOpen rfl fun _ _ => Given.stop⟩
    | false =>
      have hread : s.read id false = s.pull id := rfl
      have hasks :=
        Pipeline.asks_of_isSound (h.each place origin op horigin hop).sound hover
      simp only [op.step_of_not_isOver hover, op.scansAfter_of_asks hasks,
        hcursor, hread]
      have hopen := (s.onlyMoves_pull id).isOpen h.isOpen
      have hreads := (Scans.pullCase h.isOpen).reads
      generalize (s.pull id).1 = outcome at hreads
      change Reads (s.upcoming id) outcome ((s.pull id).2.upcoming id) at hreads
      generalize hbefore : s.upcoming id = before at hreads
      generalize hafter : (s.pull id).2.upcoming id = after at hreads
      cases hreads with
      | row row =>
        refine ⟨taken ++ [(place, row)], h.set_row hop hopen ?_ fun _ _ hgiven =>
          hgiven.take_row hover row⟩
        rw [hbefore, hafter]
      | ended =>
        exact ⟨taken, h.set_kept hop hopen (hafter.trans hbefore.symm)
          fun _ _ hgiven => hgiven.take_ended hover⟩
      | failed i =>
        refine ⟨taken, h.set_kept hop hopen (hafter.trans hbefore.symm)
          fun _ _ hgiven => ?_⟩
        exact hgiven.take_failed hover i

theorem stepAll (h : Divided id origins rows taken ops s) (places : List Nat) :
    ∃ taken', Divided id origins rows taken' (stepAll places ops s).1
      (stepAll places ops s).2 := by
  induction places generalizing taken ops s with
  | nil => exact ⟨taken, h⟩
  | cons place places ih =>
    obtain ⟨taken', hstep⟩ := h.stepAt place
    exact ih hstep

end Divided

end Operation

namespace Batch

open Operation

variable {name : String} {s : Scans} {first : Operation} {others : List Operation}
  {b : Batch}

/-- The members of a new batch have not divided any rows yet. -/
theorem divided_of_form_ok (unstarted : ∀ op ∈ first :: others, op.Unstarted s)
    (sound : ∀ op ∈ first :: others, Link.IsSound op.pipeline.links)
    (formed : form name (first :: others) s = .ok b) :
    Divided first.pipeline.cursor (first :: others)
      ((s.cursor first.pipeline.cursor).source.rows s.graph)
      [] b.members s := by
  have hfirst := unstarted first List.mem_cons_self
  rw [(grouped_of_form_ok formed).1]
  refine ⟨hfirst.isOpen, hfirst.pristine.upcoming s.graph,
    List.forall_mem_nil _, ?_, ?_⟩
  · unfold grouped
    rw [List.length_cons, List.length_map, List.length_cons]
  · intro place origin op horigin hop
    have hmem := List.mem_of_getElem? horigin
    cases place with
    | zero =>
      cases horigin
      cases hop
      exact (unstarted first hmem).given (sound first hmem) _ false
    | succ place =>
      have hop' : (others.map (fedBy first.pipeline.cursor true))[place]? = some op :=
        hop
      have horigin' : others[place]? = some origin := horigin
      rw [List.getElem?_map, horigin'] at hop'
      cases hop'
      exact (unstarted origin hmem).given (sound origin hmem) _ true

/-- The members of a batch that is dissolved before it was advanced, stepped one
at a time in any order, divide the rows of the first operation's source among
them: every row that was pulled went to one of them, and each has what its chain
makes of the rows that went to it. -/
theorem rows_divided_of_dissolved (unstarted : ∀ op ∈ first :: others, op.Unstarted s)
    (sound : ∀ op ∈ first :: others, Link.IsSound op.pipeline.links)
    (formed : form name (first :: others) s = .ok b) (places : List Nat) :
    let (ops, s') := stepAll places b.members s
    ∃ taken : List (Nat × Value),
      taken.map Prod.snd ++ s'.upcoming first.pipeline.cursor =
          (s.cursor first.pipeline.cursor).source.rows s.graph ∧
        (∀ entry ∈ taken, entry.1 < (first :: others).length) ∧
        ops.length = (first :: others).length ∧
        ∀ (place : Nat) (origin op : Operation),
          (first :: others)[place]? = some origin → ops[place]? = some op →
            op.sequence = origin.sequence ∧ op.query = origin.query ∧
              op.pipeline.rows.toList = origin.standalone (shareOf place taken) := by
  obtain ⟨taken, hdivided⟩ := (divided_of_form_ok unstarted sound formed).stepAll places
  refine ⟨taken, hdivided.rows, hdivided.placed, hdivided.length, ?_⟩
  intro place origin op horigin hop
  have hgiven := hdivided.each place origin op horigin hop
  exact ⟨hgiven.sequence, hgiven.query, hgiven.rows⟩

/-! ## Two operations over equal sources -/

/-- Two scans, each of two rows. -/
def twoScans : Scans where
  graph := default
  cursors := Array.replicate 2 { source := .script [.row (.nat 1), .row (.nat 2)] }

/-- An operation that reads all of a scan. -/
def readsAll (id : CursorId) : Operation :=
  ⟨id, "all", { kind := .allNodes, cursor := id, links := [] }⟩

/-- An order of steps in which both operations get to their end. -/
def inTurns : List Nat := [0, 1, 0, 0, 1, 1]

theorem unstarted_twoScans :
    ∀ op ∈ [readsAll 0, readsAll 1], op.Unstarted twoScans := by
  intro op hop
  rcases List.mem_cons.mp hop with rfl | hop
  · exact ⟨rfl, rfl, rfl, by decide, rfl⟩
  · rw [List.mem_singleton.mp hop]
    exact ⟨rfl, rfl, rfl, by decide, rfl⟩

theorem isSound_readsAll :
    ∀ op ∈ [readsAll 0, readsAll 1], Link.IsSound op.pipeline.links := by
  intro op hop
  rcases List.mem_cons.mp hop with rfl | hop
  · exact List.forall_mem_nil _
  · rw [List.mem_singleton.mp hop]
    exact List.forall_mem_nil _

/-- Two members of a dissolved batch that both read all of a scan of two rows
get no more than two rows together. -/
theorem rows_divided_of_dissolved_pair :
    ∃ b, form "pair" [readsAll 0, readsAll 1] twoScans = .ok b ∧ ∀ places : List Nat,
      ∃ taken : List (Nat × Value), taken.map Prod.snd <+: [.nat 1, .nat 2] ∧
        ∀ place op, (stepAll places b.members twoScans).1[place]? = some op → place < 2 →
          op.pipeline.rows.toList = shareOf place taken := by
  have formed : form "pair" [readsAll 0, readsAll 1] twoScans = .ok _ := rfl
  refine ⟨_, formed, ?_⟩
  intro places
  obtain ⟨taken, hrows, -, -, heach⟩ :=
    rows_divided_of_dissolved unstarted_twoScans isSound_readsAll formed places
  refine ⟨taken, ⟨_, hrows⟩, ?_⟩
  intro place op hop hplace
  obtain ⟨origin, horigin, hlinks⟩ :
    ∃ origin, [readsAll 0, readsAll 1][place]? = some origin ∧
      origin.pipeline.links = [] := by
    match place, hplace with
    | 0, _ => exact ⟨_, rfl, rfl⟩
    | 1, _ => exact ⟨_, rfl, rfl⟩
  have hshare := (heach place origin op horigin hop).2.2
  unfold standalone at hshare
  rw [hlinks] at hshare
  exact hshare

/-- Dissolving a batch does not undo forming it: the members, brought to
their end by steps in turn, have other rows than the same steps give when no
batch was formed. -/
theorem not_restored_of_dissolved :
    ¬ ∀ (name : String) (s : Scans) (first : Operation) (others : List Operation) (b : Batch),
      (∀ op ∈ first :: others, op.Unstarted s) →
      (∀ op ∈ first :: others, Link.IsSound op.pipeline.links) →
      (∀ op ∈ others, op.pipeline.kind = first.pipeline.kind) →
      form name (first :: others) s = .ok b → ∀ places,
        (stepAll places b.members s).1.map (·.pipeline.rows) =
          (stepAll places (first :: others) s).1.map (·.pipeline.rows) := by
  intro h
  have hrows :=
    h "pair" twoScans (readsAll 0) [readsAll 1] _ unstarted_twoScans isSound_readsAll
    (List.forall_mem_singleton.mpr rfl) rfl inTurns
  have hsizes := congrArg (List.map Array.size) hrows
  have hdissolved :
    ((stepAll inTurns (grouped (readsAll 0) [readsAll 1]) twoScans).1.map
      (·.pipeline.rows)).map Array.size = [1, 1] := by decide
  have halone : ((stepAll inTurns [readsAll 0, readsAll 1] twoScans).1.map
      (·.pipeline.rows)).map Array.size = [2, 2] := by decide
  have hboth := hdissolved.symm.trans (hsizes.trans halone)
  exact absurd hboth (by decide)

end Batch

end Lockstep
