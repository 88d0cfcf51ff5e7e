import Lockstep.Proofs.Batch.TwinRun
set_option autoImplicit false

/-!
# Transient failures are transparent

A run whose scan fails now and then, always with a transient failure, differs
from the run over a scan that does not fail in counts of steps only, as long as
no streak of aborted rounds is longer than the retries.  The first round that
makes one longer fails the batch.
-/

namespace Lockstep

namespace BatchRun

open Operation (Paired)

variable {id : CursorId} {maxRetries : UInt32} {quiet r : BatchRun}
  {history : List RoundEnd}

/-- A run that has never used up its retries, beside the run over a quiet scan
that has completed as many rounds. -/
structure InTime (id : CursorId) (maxRetries : UInt32) (quiet : BatchRun)
    (history : List RoundEnd) (r : BatchRun) : Prop where
  budget : WithinBudget maxRetries.toNat history
  counted : r.batch.abortedRounds.toNat = trailingAborts history
  twin : Twin id r (quiet.answer (.advance r.batch.rounds maxRetries))
  statuses : ∀ d ∈ r.deliveries, d.status = .completed

/-- Where a run with a history has come to. -/
inductive Course (id : CursorId) (maxRetries : UInt32) (quiet : BatchRun) :
    List RoundEnd → BatchRun → Prop
  /-- the retries were never used up -/
  | inTime {history : List RoundEnd} {r : BatchRun}
      (h : InTime id maxRetries quiet history r) :
      Course id maxRetries quiet history r
  /-- the last round has used them up and failed the batch -/
  | exhausted {before : List RoundEnd} {f : Failure} {r : BatchRun}
      {members : List Operation}
      {sent : List Delivery} (budget : WithinBudget maxRetries.toNat before)
      (streak : trailingAborts before = maxRetries.toNat) (empty : r.batch.members = [])
      (failed : r.deliveries =
        sent ++ Batch.failures (Batch.exhaustion maxRetries f) members)
      (twin : Twin id
        { r with batch := { r.batch with members := members }, deliveries := sent }
        (quiet.answer (.advance r.batch.rounds maxRetries)))
      (statuses : ∀ d ∈ sent, d.status = .completed) :
      Course id maxRetries quiet (before ++ [.aborted f]) r

/-! ## Single rounds -/

/-- A round that completes beside the quiet one starts the streak anew. -/
theorem InTime.completed (h : InTime id maxRetries quiet history r)
    (hquiet : Twin id quiet quiet) (hmembers : r.batch.members ≠ [])
    {members members' : List Operation} {s₁ q₁ : Scans}
    (hround : Batch.round
      (quiet.answer (.advance r.batch.rounds maxRetries)).batch.members
      (quiet.answer (.advance r.batch.rounds maxRetries)).scans =
      (.completed, members', q₁)) (alike : s₁.Alike id q₁)
    (agree : List.Forall₂ (Paired Operation.essence id) members members') :
    InTime id maxRetries quiet (history ++ [.completed]) (r.completed members s₁) where
  budget := by
    refine withinBudget_concat.mpr ⟨h.budget, ?_⟩
    rw [trailingAborts_concat]
    exact Nat.zero_le _
  counted := by
    rw [trailingAborts_concat]
    rfl
  twin := by
    obtain ⟨-, hmore⟩ := hquiet.answer_advance maxRetries r.batch.rounds
    have hmembers' : (quiet.answer (.advance r.batch.rounds maxRetries)).batch.members ≠ [] :=
      fun hnil => hmembers (h.twin.members_eq_nil.mpr hnil)
    have hrounds : (r.completed members s₁).batch.rounds = r.batch.rounds + 1 := rfl
    rw [hrounds, hmore 1, (answer_advance_completed 0 maxRetries hmembers' hround).1,
      (answer_advance_idle maxRetries (.inl rfl)).1]
    exact h.twin.completed alike agree
  statuses := by
    refine List.forall_mem_append.mpr ⟨h.statuses, ?_⟩
    intro d hd
    obtain ⟨op, -, rfl⟩ := List.mem_map.mp hd
    rfl

/-- A round that aborts makes the streak longer, and fails the batch if that
uses up the retries. -/
theorem InTime.aborted (h : InTime id maxRetries quiet history r)
    (hmembers : r.batch.members ≠ []) {f : Failure} {members : List Operation} {s₁ : Scans}
    (hround : Batch.round r.batch.members r.scans = (.aborted f, members, s₁))
    (alike : s₁.Alike id (quiet.answer (.advance r.batch.rounds maxRetries)).scans)
    (kept : List.Forall₂ (Paired Operation.outlook id) members
      (quiet.answer (.advance r.batch.rounds maxRetries)).batch.members) (stride : Nat) :
    Course id maxRetries quiet (history ++ [.aborted f])
      (r.answer (.advance (stride + 1) maxRetries)) := by
  have hstreak : trailingAborts history ≤ maxRetries.toNat :=
    withinBudget_iff.mp h.budget history List.prefix_rfl
  rcases Nat.lt_or_eq_of_le hstreak with hlt | heq
  · have hretries : r.batch.abortedRounds < maxRetries := by
      rw [UInt32.lt_iff_toNat_lt, h.counted]
      exact hlt
    rw [answer_advance_aborted hmembers hround hretries]
    refine .inTime
      ⟨withinBudget_concat.mpr ⟨h.budget, ?_⟩, ?_, h.twin.aborted alike kept, h.statuses⟩
    · rw [trailingAborts_concat]
      exact hlt
    · rw [trailingAborts_concat]
      have hbound := maxRetries.toNat_lt
      have hcount : (r.aborted members s₁).batch.abortedRounds =
        r.batch.abortedRounds + 1 := rfl
      rw [hcount, UInt32.toNat_add, h.counted]
      exact Nat.mod_eq_of_lt (by simp; omega)
  · have hretries : r.batch.abortedRounds = maxRetries :=
      UInt32.toNat_inj.mp (h.counted.trans heq)
    obtain ⟨count, hanswer⟩ := answer_advance_exhausted hmembers hround hretries
    rw [hanswer]
    exact .exhausted h.budget heq rfl rfl
      ⟨alike, kept, h.twin.rounds, h.twin.outcomes⟩ h.statuses

/-! ## Calls -/

/-- An advance of any number of rounds stays on the course. -/
theorem Course.answer_advance (h : Course id maxRetries quiet history r)
    (hquiet : Twin id quiet quiet) (stride : Nat) :
    Course id maxRetries quiet (history ++ r.attempts (.advance stride maxRetries))
      (r.answer (.advance stride maxRetries)) := by
  have hidle : ∀ {stride history r}, Course id maxRetries quiet history r →
      stride = 0 ∨ r.batch.members = [] →
      Course id maxRetries quiet (history ++ r.attempts (.advance stride maxRetries))
        (r.answer (.advance stride maxRetries)) := by
    intro stride history r hcourse hnothing
    obtain ⟨hanswer, hattempts⟩ := answer_advance_idle maxRetries hnothing
    rw [hanswer, hattempts, List.append_nil]
    exact hcourse
  induction stride generalizing history r with
  | zero => exact hidle h (.inl rfl)
  | succ stride ih =>
    by_cases hmembers : r.batch.members = []
    · exact hidle h (.inr hmembers)
    · cases h with
      | exhausted budget streak empty failed twin statuses =>
        exact absurd empty hmembers
      | inTime h =>
        have hround := Batch.roundTwin_round h.twin.alike h.twin.members
        generalize hresult : Batch.round r.batch.members r.scans = result at hround
        generalize hresult' : Batch.round _ (quiet.answer _).scans = result' at hround
        cases hround with
        | @completed members members' s₁ q₁ alike agree =>
          obtain ⟨hanswer, hattempts⟩ :=
            answer_advance_completed stride maxRetries hmembers
            hresult
          rw [hanswer, hattempts, List.append_cons]
          exact ih (.inTime (h.completed hquiet hmembers hresult' alike agree))
        | aborted failed alike kept =>
          rw [attempts_advance_aborted hmembers hresult]
          exact h.aborted hmembers hresult alike kept stride

theorem Course.answer_disturb (h : Course id maxRetries quiet history r)
    (d : Disturbance) :
    Course id maxRetries quiet (history ++ r.attempts (.disturb d))
      (r.answer (.disturb d)) := by
  have hattempts : r.attempts (.disturb d) = [] := rfl
  rw [hattempts, List.append_nil]
  cases h with
  | inTime h => exact .inTime ⟨h.budget, h.counted, h.twin.disturb d, h.statuses⟩
  | exhausted budget streak empty failed twin statuses =>
    exact .exhausted budget streak empty failed (twin.disturb d) statuses

/-- Calls with a fixed number of retries stay on the course. -/
theorem Course.answerAll (h : Course id maxRetries quiet history r)
    (hquiet : Twin id quiet quiet) (calls : List BatchCall)
    (fixed : ∀ stride retries, .advance stride retries ∈ calls → retries = maxRetries) :
    Course id maxRetries quiet (history ++ r.history calls) (r.answerAll calls) := by
  induction calls generalizing history r with
  | nil =>
    rw [BatchRun.history, List.append_nil]
    exact h
  | cons call calls ih =>
    have hrest : ∀ stride retries, .advance stride retries ∈ calls →
        retries = maxRetries :=
      fun stride retries hcall => fixed stride retries (List.mem_cons_of_mem _ hcall)
    rw [BatchRun.history, ← List.append_assoc]
    cases call with
    | advance stride retries =>
      obtain rfl := fixed stride retries List.mem_cons_self
      exact ih (h.answer_advance hquiet stride) hrest
    | disturb d => exact ih (h.answer_disturb d) hrest

theorem Twin.course {start : BatchRun} (h : Twin id start quiet)
    (rounds : start.batch.rounds = 0) (aborted : start.batch.abortedRounds = 0)
    (deliveries : start.deliveries = []) (calls : List BatchCall)
    (fixed : ∀ stride retries, .advance stride retries ∈ calls → retries = maxRetries) :
    Course id maxRetries quiet (start.history calls) (start.answerAll calls) := by
  have hstart : InTime id maxRetries quiet [] start := by
    refine ⟨withinBudget_nil _, ?_, ?_, ?_⟩
    · rw [aborted]
      rfl
    · rw [rounds, (answer_advance_idle maxRetries (.inl rfl)).1]
      exact h
    · rw [deliveries]
      exact List.forall_mem_nil _
  exact (Course.inTime hstart).answerAll h.refl calls fixed

/-- A run whose history is within the budget has not failed. -/
theorem Course.inTime_of_withinBudget (h : Course id maxRetries quiet history r)
    (hbudget : WithinBudget maxRetries.toNat history) :
    InTime id maxRetries quiet history r := by
  cases h with
  | inTime h => exact h
  | exhausted budget streak empty failed twin statuses =>
    have hlast := (withinBudget_concat.mp hbudget).2
    rw [trailingAborts_concat, streak] at hlast
    exact absurd hlast (Nat.not_succ_le_self _)

end BatchRun

namespace Batch

/-- The run of a new batch over a patient scan and the one over the quieted
scan begin as twins. -/
theorem twin_grouped (id : String) {s : Scans} {first : Operation}
    {others : List Operation} (hopen : s.IsOpen first.pipeline.cursor)
    (patient : (s.cursor first.pipeline.cursor).IsPatient)
    (sound : ∀ op ∈ first :: others, Link.IsSound op.pipeline.links) :
    let b : Batch :=
      { id := id, firstSequence := first.sequence, members := grouped first others }
    BatchRun.Twin first.pipeline.cursor { batch := b, scans := s }
      { batch := b, scans := s.quieted } where
  alike := Scans.alike_quieted hopen patient
  members := by
    refine List.forall₂_same.mpr ?_
    intro op hop
    obtain ⟨op₀, hop₀, cached, rfl⟩ := mem_grouped hop
    exact ⟨rfl, rfl, rfl, sound op₀ hop₀⟩
  rounds := rfl
  outcomes := rfl

/-- Operations of one kind that were never stepped, whose chains do not break off,
form the same batch over a scan with transient failures and over the quieted one.
However the first is advanced and its graph disturbed, as long as no more rounds
are aborted in a row than the retries it has delivered the same, completed as many
rounds and pulled as often as the second has after as many rounds, and has the
same left to do; and once both have nothing left they agree whatever the strides
were.  Otherwise the batch has failed with the first round that made a longer
streak: its members were delivered as completed if they had found their end, and
as failed if not, and it has agreed with the quiet run until then. -/
theorem transparent_up_to_retries (id : String) (s : Scans) (first : Operation)
    (others : List Operation) (unstarted : ∀ op ∈ first :: others, op.Unstarted s)
    (kinds : ∀ op ∈ others, op.pipeline.kind = first.pipeline.kind)
    (sound : ∀ op ∈ first :: others, Link.IsSound op.pipeline.links)
    (patient : (s.cursor first.pipeline.cursor).source.IsPatient) :
    ∃ b, form id (first :: others) s = .ok b ∧ form id (first :: others) s.quieted = .ok b ∧
      ∀ (maxRetries : UInt32) (calls : List BatchCall),
        (∀ stride retries, .advance stride retries ∈ calls → retries = maxRetries) →
        let start : BatchRun := { batch := b, scans := s }
        let run := start.answerAll calls
        let history := start.history calls
        let quiet (strides : List Nat) :=
          BatchRun.answerAll { batch := b, scans := s.quieted }
            (strides.map fun stride => .advance stride maxRetries)
        (WithinBudget maxRetries.toNat history →
          (∀ d ∈ run.deliveries, d.status = .completed) ∧
          run.Agrees first.pipeline.cursor (quiet [run.batch.rounds]) ∧
          ∀ strides, run.batch.members = [] → (quiet strides).batch.members = [] →
            run.Agrees first.pipeline.cursor (quiet strides)) ∧
        (¬ WithinBudget maxRetries.toNat history →
          ∃ before reason sent members, history = before ++ [.aborted reason] ∧
            WithinBudget maxRetries.toNat before ∧
            trailingAborts history = maxRetries.toNat + 1 ∧
            run.batch.members = [] ∧
            run.deliveries = sent ++ failures (exhaustion maxRetries reason) members ∧
            (∀ d ∈ sent, d.status = .completed) ∧
            BatchRun.Agrees first.pipeline.cursor
              { run with
                batch := { run.batch with members := members }
                deliveries := sent }
              (quiet [run.batch.rounds])) := by
  have hfirst := unstarted first List.mem_cons_self
  have hpristine := hfirst.pristine
  have hpatient : (s.cursor first.pipeline.cursor).IsPatient :=
    ⟨by rw [hpristine], patient⟩
  have htwin := twin_grouped id hfirst.isOpen hpatient sound
  refine ⟨_, form_eq id kinds fun op hop => (unstarted op hop).pristine.pulls,
    form_eq id kinds ?_, ?_⟩
  · intro op hop
    rw [Scans.cursor_quieted]
    exact (unstarted op hop).pristine.pulls
  · intro maxRetries calls fixed
    have hcourse := htwin.course rfl rfl rfl calls fixed
    have hadvances := fun strides =>
      htwin.refl.answerAll_advances maxRetries strides
    intro start run history quiet
    have hrounds : quiet [run.batch.rounds] = _ := hadvances [run.batch.rounds]
    rw [List.foldr_cons, List.foldr_nil, Nat.add_zero] at hrounds
    rw [hrounds]
    constructor
    · intro hbudget
      have hin := hcourse.inTime_of_withinBudget hbudget
      refine ⟨hin.statuses, hin.twin.agrees, ?_⟩
      intro strides hdrained hdrained'
      have hstrides : quiet strides = _ := hadvances strides
      rw [hstrides] at hdrained' ⊢
      rw [htwin.refl.answer_advance_drained hdrained'
        (hin.twin.members_eq_nil.mp hdrained)]
      exact hin.twin.agrees
    · intro hbudget
      have hover : BatchRun.Course first.pipeline.cursor maxRetries _ history run :=
        hcourse
      generalize history = history at hover hbudget
      cases hover with
      | inTime h => exact absurd h.budget hbudget
      | exhausted budget streak empty failed twin statuses =>
        refine ⟨_, _, _, _, rfl, budget, ?_, empty, failed, statuses, twin.agrees⟩
        rw [trailingAborts_concat, streak]
        rfl

/-- With one retry the pair comes to the same as over a scan that does not fail.
With none the first failure ends the batch: the chain cut at one row has found
its end and completes, the other fails. -/
theorem transparent_up_to_retries_pair :
    ∃ b, form "pair" [cutShort, takesAll] interruptedPair = .ok b ∧
      let start : BatchRun := { batch := b, scans := interruptedPair }
      let quiet : BatchRun := { batch := b, scans := interruptedPair.quieted }
      (start.answerAll [.advance 9 1, .advance 9 1]).Agrees 0
          (quiet.answerAll [.advance 4 1]) ∧
        let failing := start.answerAll [.advance 9 0, .advance 9 0]
        failing.deliveries.map (fun d => (d.operation.sequence, d.status)) =
          [(0, .completed), (1, .failed "[ERROR] AERO_TRANSACTION_UNAVAILABLE: busy")] ∧
        ∃ sent reason members,
          failing.deliveries = sent ++ failures (exhaustion 0 reason) members ∧
          ∀ d ∈ sent, d.status = .completed := by
  have sound : ∀ op ∈ [cutShort, takesAll], Link.IsSound op.pipeline.links := by
    intro op hop
    rcases List.mem_cons.mp hop with rfl | hop
    · exact List.forall_mem_singleton.mpr rfl
    · rw [List.mem_singleton.mp hop]
      exact List.forall_mem_singleton.mpr rfl
  have patient : (interruptedPair.cursor 0).source.IsPatient := by
    refine List.forall_mem_cons.mpr ⟨rfl, List.forall_mem_cons.mpr ⟨rfl, ?_⟩⟩
    exact List.forall_mem_singleton.mpr rfl
  obtain ⟨b, hform, -, hrun⟩ :=
    transparent_up_to_retries "pair" interruptedPair cutShort [takesAll]
    unstarted_interruptedPair kinds_interruptedPair sound patient
  have hpair := form_eq "pair" kinds_interruptedPair fun op hop =>
    (unstarted_interruptedPair op hop).pristine.pulls
  rw [hpair] at hform
  cases hform
  refine ⟨_, hpair, ?_, ?_⟩
  · obtain ⟨hwithin, -⟩ := hrun 1 [.advance 9 1, .advance 9 1] (by simp)
    exact (hwithin (by decide +kernel)).2.2 [4] (by decide +kernel) (by decide +kernel)
  · obtain ⟨-, hover⟩ := hrun 0 [.advance 9 0, .advance 9 0] (by simp)
    obtain ⟨-, reason, sent, members, -, -, -, -, hdeliveries, hcompleted, -⟩ :=
      hover (by decide +kernel)
    exact ⟨rfl, sent, reason, members, hdeliveries, hcompleted⟩

end Batch

end Lockstep
