import Lockstep.Command.Report
import Mathlib.Data.List.Nodup
set_option autoImplicit false

/-!
# Reports, line by line

Writing a line takes an outcome out of the store and changes nothing else.  So
if no number occurs twice, each line can be told from the engine as it was
before the report.
-/

namespace Lockstep

theorem Engine.takeOutcome_eq (e : Engine) (sequence : Nat) :
    e.takeOutcome sequence = (e.outcomes.find? fun o => o.sequence == sequence,
      { e with outcomes := e.outcomes.filter fun o => o.sequence != sequence }) := by
  unfold takeOutcome Outcomes.take?
  cases hfound : e.outcomes.find? fun o => o.sequence == sequence with
  | some o => rfl
  | none =>
    have hall : e.outcomes.filter (fun o => o.sequence != sequence) = e.outcomes := by
      rw [List.filter_eq_self]
      intro o ho
      exact congrArg (!·) (Bool.eq_false_iff.mpr (List.find?_eq_none.mp hfound o ho))
    rw [hall]
    rfl

namespace Report

variable {e : Engine}

/-- The line of a query, as long as no other line has taken its outcome. -/
def line (e : Engine) : String × Except EngineError Nat → Value
  | (query, .error reason) => rejection query reason
  | (_, .ok sequence) => (outcome e sequence).1

theorem outcome_of_some {sequence : Nat} {o : Outcome}
    (h : e.outcomes.find? (fun o => o.sequence == sequence) = some o) :
    (outcome e sequence).1 = o.toValue [("latency_us", latency e sequence)] := by
  unfold outcome
  rw [e.takeOutcome_eq, h]
  rfl

theorem outcome_of_none {sequence : Nat}
    (h : e.outcomes.find? (fun o => o.sequence == sequence) = none) :
    (outcome e sequence).1 =
      error CommandSubject.engine.code
        ("no outcome for operation " ++ toString sequence) := by
  unfold outcome
  rw [e.takeOutcome_eq, h]

theorem outcome_snd (e : Engine) (sequence : Nat) :
    (outcome e sequence).2 =
      { e with outcomes := e.outcomes.filter fun o => o.sequence != sequence } := by
  unfold outcome
  rw [e.takeOutcome_eq]
  cases e.outcomes.find? fun o => o.sequence == sequence <;> rfl

/-- The line of one number does not touch that of another. -/
theorem line_outcome_snd {sequence : Nat} {query : String × Except EngineError Nat}
    (apart : query.2 ≠ .ok sequence) :
    line (outcome e sequence).2 query = line e query := by
  obtain ⟨text, result⟩ := query
  cases result with
  | error reason => rfl
  | ok other =>
    have hne : other ≠ sequence := fun h => apart (congrArg Except.ok h)
    have hfind :
      ((e.outcomes.filter fun o => o.sequence != sequence).find? fun o =>
        o.sequence == other) =
        e.outcomes.find? fun o => o.sequence == other := by
      rw [List.find?_filter]
      congr 1
      funext o
      grind
    rw [outcome_snd]
    unfold line
    dsimp only
    cases hfound : e.outcomes.find? fun o => o.sequence == other with
    | some o =>
      rw [outcome_of_some hfound]
      exact outcome_of_some (hfind.trans hfound)
    | none =>
      rw [outcome_of_none hfound]
      exact outcome_of_none (hfind.trans hfound)

/-- Every query has its line, and only the store has changed after the report. -/
theorem outcomes_eq_map (e : Engine) {queries : List (String × Except EngineError Nat)}
    (distinct : (queries.filterMap (·.2.toOption)).Nodup) :
    (outcomes e queries).1 = queries.map (line e) ∧
      ∃ stored, (outcomes e queries).2 = { e with outcomes := stored } := by
  induction queries generalizing e with
  | nil => exact ⟨rfl, e.outcomes, rfl⟩
  | cons query queries ih =>
    obtain ⟨text, result⟩ := query
    cases result with
    | error reason =>
      obtain ⟨hlines, hlast⟩ := ih e distinct
      exact ⟨congrArg _ hlines, hlast⟩
    | ok sequence =>
      obtain ⟨hnew, hothers⟩ := List.nodup_cons.mp distinct
      obtain ⟨hlines, stored, hlast⟩ := ih (outcome e sequence).2 hothers
      refine ⟨?_, stored, ?_⟩
      · have hsame : queries.map (line (outcome e sequence).2) =
            queries.map (line e) := by
          refine List.map_congr_left fun query hquery =>
            line_outcome_snd fun hsame => hnew ?_
          exact List.mem_filterMap.mpr ⟨query, hquery, hsame ▸ rfl⟩
        exact congrArg _ (hlines.trans hsame)
      · have hnext : (outcomes e ((text, .ok sequence) :: queries)).2 =
            (outcomes (outcome e sequence).2 queries).2 := rfl
        rw [hnext, hlast, outcome_snd]

end Report

end Lockstep
