import Lockstep.Proofs.Scan.Disturbance
import Lockstep.Proofs.Scan.Quiet
set_option autoImplicit false

/-!
# Scans with transient failures only

A source is patient if a read of it that fails does so with a transient failure.
Quieted, it gives the same rows and no read of it fails.  Two tables are alike
at a cursor if the cursor has come equally far in both, patient in the one and
quiet in the other; a pull keeps them alike, or fails in the one.
-/

namespace Lockstep

/-! ## Sources -/

/-- Whether a script entry is neither a crash nor a failure that is there to stay. -/
def ScriptEntry.isPatient : ScriptEntry → Bool
  | .interruption (.failed f) => f.isTransient
  | .interruption (.crashed _) => false
  | _ => true

/-- A graph whose every read fails does so with a transient failure. -/
theorem Graph.isTransient_of_obstacle? {g : Graph} {f : Failure}
    (h : g.obstacle? = some f) :
    f.isTransient = true := by
  unfold Graph.obstacle? at h
  split at h
  · cases h
    rfl
  · split at h <;> cases h
    rfl

/-- The graph with its transaction open and no failure pending. -/
def Graph.quieted (g : Graph) : Graph := { g with isOpen := true, pendingFailures := 0 }

theorem Graph.isQuiet_quieted (g : Graph) : g.quieted.IsQuiet := ⟨rfl, rfl⟩

namespace Source

/-- Whether every read of the source that fails does so with a transient failure. -/
def IsPatient : Source → Prop
  | .graph _ _ => True
  | .script entries => ∀ entry ∈ entries, entry.isPatient = true

/-- The source without its failures. -/
def quieted : Source → Source
  | .graph kind position => .graph kind position
  | .script entries => .script (entries.filter fun entry => !entry.isInterruption)

theorem isQuiet_quieted (source : Source) {g : Graph} (h : g.IsQuiet) :
    source.quieted.IsQuiet g := by
  cases source with
  | graph kind position => exact h
  | script entries =>
    intro entry hentry
    simpa using (List.mem_filter.mp hentry).2

theorem scriptRows_filter (entries : List ScriptEntry) :
    scriptRows (entries.filter fun entry => !entry.isInterruption) =
      scriptRows entries := by
  induction entries with
  | nil => rfl
  | cons entry entries ih =>
    cases entry with
    | row row => exact congrArg (row :: ·) ih
    | interruption i => exact ih
    | ending => rfl

theorem rows_quieted (source : Source) (g : Graph) :
    source.quieted.rows g.quieted = source.rows g := by
  cases source with
  | graph kind position => rfl
  | script entries => exact scriptRows_filter entries

/-- A read of a patient source leaves it patient, and if it fails it does so
with a transient failure. -/
theorem IsPatient.next {source : Source} (h : source.IsPatient) (g : Graph) :
    (source.next g).source.IsPatient ∧ ∀ i, (source.next g).outcome = .error i →
      ∃ f, i = .failed f ∧ f.isTransient = true := by
  cases source with
  | graph kind position =>
    cases hobstacle : g.obstacle? with
    | some f =>
      simp only [Source.next, hobstacle]
      refine ⟨trivial, ?_⟩
      intro i hi
      cases hi
      exact ⟨f, rfl, Graph.isTransient_of_obstacle? hobstacle⟩
    | none =>
      simp only [Source.next, hobstacle]
      split <;> exact ⟨trivial, fun i hi => (by cases hi)⟩
  | script entries =>
    cases entries with
    | nil => exact ⟨h, fun i hi => (by cases hi)⟩
    | cons entry rest =>
      obtain ⟨hentry, hrest⟩ := List.forall_mem_cons.mp h
      cases entry with
      | row row => exact ⟨hrest, fun i hi => (by cases hi)⟩
      | ending => exact ⟨hrest, fun i hi => (by cases hi)⟩
      | interruption j =>
        refine ⟨hrest, ?_⟩
        intro i hi
        cases hi
        cases j with
        | failed f => exact ⟨f, rfl, hentry⟩
        | crashed crash => cases hentry

/-- A source that does not fail is patient. -/
theorem IsQuiet.isPatient {source : Source} {g : Graph} (h : source.IsQuiet g) :
    source.IsPatient := by
  cases source with
  | graph kind position => trivial
  | script entries =>
    intro entry hentry
    cases entry with
    | row row => rfl
    | ending => rfl
    | interruption i => cases h _ hentry

end Source

/-! ## Cursors -/

namespace Cursor

/-- Whether a pull of the cursor that fails does so with a transient failure. -/
structure IsPatient (c : Cursor) : Prop where
  sound : c.broken = false
  source : c.source.IsPatient

/-- The cursor with a source that does not fail. -/
def quieted (c : Cursor) : Cursor := { c with source := c.source.quieted }

/-- A pull of a patient cursor leaves it patient, and if it fails it does so
with a transient failure before the end. -/
theorem IsPatient.pull {c : Cursor} (h : c.IsPatient) (g : Graph) :
    (c.pull g).2.1.IsPatient ∧ ∀ i, (c.pull g).1 = .error i →
      c.isExhausted = false ∧ ∃ f, i = .failed f ∧ f.isTransient = true := by
  obtain ⟨hsource, hfailed⟩ := h.source.next g
  unfold Cursor.pull
  rw [h.sound]
  simp only [Bool.false_eq_true, if_false]
  cases hended : c.isExhausted with
  | true => exact ⟨h, fun i hi => (by cases hi)⟩
  | false =>
    simp only [Bool.false_eq_true, if_false]
    cases houtcome : (c.source.next g).outcome with
    | error i =>
      obtain ⟨f, rfl, htransient⟩ := hfailed i houtcome
      refine ⟨⟨rfl, hsource⟩, ?_⟩
      intro i hi
      cases hi
      exact ⟨trivial, f, rfl, htransient⟩
    | ok found =>
      cases found with
      | some row => exact ⟨⟨rfl, hsource⟩, fun i hi => (by cases hi)⟩
      | none => exact ⟨⟨rfl, hsource⟩, fun i hi => (by cases hi)⟩

end Cursor

/-! ## The table -/

namespace Scans

/-- The table in which no scan fails. -/
def quieted (s : Scans) : Scans where
  graph := s.graph.quieted
  cursors := s.cursors.map Cursor.quieted

theorem cursor_quieted (s : Scans) (id : CursorId) :
    s.quieted.cursor id = (s.cursor id).quieted := by
  unfold quieted cursor
  simp only [Array.getD_eq_getD_getElem?, Array.getElem?_map]
  cases s.cursors[id]? <;> rfl

theorem isOpen_quieted {s : Scans} {id : CursorId} (h : s.IsOpen id) :
    s.quieted.IsOpen id := by
  unfold IsOpen quieted
  rw [Array.size_map]
  exact h

theorem IsQuiet.isPatient {s : Scans} {id : CursorId} (h : s.IsQuiet id) :
    (s.cursor id).IsPatient :=
  ⟨h.cursor.sound, h.cursor.source.isPatient⟩

/-- A cursor has come equally far in two tables, patient in the one and
quiet in the other. -/
structure Alike (id : CursorId) (s q : Scans) : Prop where
  isOpen : s.IsOpen id
  patient : (s.cursor id).IsPatient
  quiet : q.IsQuiet id
  latest : (s.cursor id).latest = (q.cursor id).latest
  pulls : (s.cursor id).pulls = (q.cursor id).pulls
  upcoming : s.upcoming id = q.upcoming id

/-- A table is like the one in which no scan fails. -/
theorem alike_quieted {s : Scans} {id : CursorId} (hopen : s.IsOpen id)
    (patient : (s.cursor id).IsPatient) : Alike id s s.quieted := by
  have hcursor := s.cursor_quieted id
  refine ⟨hopen, patient, ⟨isOpen_quieted hopen, ?_⟩, ?_, ?_, ?_⟩
  · rw [hcursor]
    exact ⟨patient.sound, (s.cursor id).source.isQuiet_quieted s.graph.isQuiet_quieted⟩
  · rw [hcursor]
    rfl
  · rw [hcursor]
    rfl
  · unfold Scans.upcoming
    rw [hcursor]
    unfold Cursor.upcoming
    have hrows := (s.cursor id).source.rows_quieted s.graph
    exact congrArg (fun rows => if (s.cursor id).isExhausted then [] else rows) hrows.symm

namespace Alike

variable {id : CursorId} {s q : Scans}

theorem isExhausted (h : Alike id s q) :
    (s.cursor id).isExhausted = (q.cursor id).isExhausted := by
  unfold Cursor.isExhausted
  rw [h.latest]

theorem readCached (h : Alike id s q) :
    (s.cursor id).readCached = (q.cursor id).readCached := by
  unfold Cursor.readCached
  rw [h.patient.sound, h.quiet.cursor.sound, h.latest]

theorem exists_readCached (h : Alike id s q) :
    ∃ progress, (s.cursor id).readCached = .ok progress := by
  unfold Cursor.readCached
  rw [h.patient.sound]
  simp only [Bool.false_eq_true, if_false]
  split <;> exact ⟨_, rfl⟩

theorem disturb (h : Alike id s q) (d : Disturbance) : Alike id (s.disturb d) q :=
  ⟨h.isOpen, h.patient, h.quiet, h.latest, h.pulls,
    (s.upcoming_disturb id d).trans h.upcoming⟩

/-- A pull that fails in the one table does so with a transient failure before
the end, and moves nothing. -/
theorem pull_failed (h : Alike id s q) {i : Interruption}
    (hpull : (s.pull id).1 = .error i) :
    (∃ f, i = .failed f ∧ f.isTransient = true) ∧ (s.cursor id).isExhausted = false ∧
      Alike id (s.pull id).2 q := by
  obtain ⟨hpatient, hfailed⟩ := h.patient.pull s.graph
  obtain ⟨hlive, htransient⟩ := hfailed i hpull
  have hcase := pullCase h.isOpen
  rw [hpull] at hcase
  obtain ⟨hlatest, hpulls, hupcoming⟩ := hcase.unmoved
  refine ⟨htransient, hlive, (s.onlyMoves_pull id).isOpen h.isOpen, ?_, h.quiet,
    hlatest.trans h.latest, hpulls.trans h.pulls, hupcoming.trans h.upcoming⟩
  rw [cursor_pull_self h.isOpen]
  exact hpatient

/-- A pull that gives something in the one table gives the same in the other. -/
theorem pull_ok (h : Alike id s q) {progress : Progress}
    (hpull : (s.pull id).1 = .ok progress) :
    (q.pull id).1 = .ok progress ∧ Alike id (s.pull id).2 (q.pull id).2 := by
  obtain ⟨hpatient, -⟩ := h.patient.pull s.graph
  obtain ⟨⟨progress', hpull'⟩, hquiet⟩ := h.quiet.pull
  have hcase := pullCase h.isOpen
  have hcase' := pullCase h.quiet.isOpen
  rw [hpull] at hcase
  rw [hpull'] at hcase'
  obtain ⟨rfl, hlatest, hpulls, hupcoming⟩ :=
    hcase.agree hcase' h.latest h.pulls h.upcoming
  refine ⟨hpull', (s.onlyMoves_pull id).isOpen h.isOpen, ?_, hquiet, hlatest, hpulls, hupcoming⟩
  rw [cursor_pull_self h.isOpen]
  exact hpatient

end Alike

end Scans

end Lockstep
