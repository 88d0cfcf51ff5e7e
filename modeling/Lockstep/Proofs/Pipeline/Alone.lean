import Lockstep.Proofs.Scan.Quiet
set_option autoImplicit false

/-!
# Running alone

A chain that is run by itself over rows that come without failures finds its end
after at most one step more than there are rows, and then has exactly what its
links yield of them.
-/

namespace Lockstep

/-- A table with one cursor, in front of the given rows. -/
def Scans.ofRows (rows : List Value) : Scans :=
  { graph := default, cursors := #[{ source := .script (rows.map .row) }] }

namespace Link

/-- The chain without its faults. -/
def sound (links : List Link) : List Link := links.filter fun link => !link.isFault

/-- Faults make nothing of rows. -/
theorem yield_sound (links : List Link) (rows : List Value) :
    yield (sound links) rows = yield links rows := by
  induction links generalizing rows with
  | nil => rfl
  | cons link links ih =>
    unfold sound
    cases hfault : link.isFault with
    | true =>
      rw [List.filter_cons_of_neg (by simp [hfault])]
      unfold isFault at hfault
      split at hfault
      · exact ih rows
      · cases hfault
    | false =>
      rw [List.filter_cons_of_pos (by simp [hfault]), yield, yield]
      exact ih _

/-- Whether no link of a chain is a fault. -/
def IsSound (links : List Link) : Prop := ∀ link ∈ links, link.isFault = false

theorem isSound_sound (links : List Link) : IsSound (sound links) := by
  intro link hlink
  simpa using (List.mem_filter.mp hlink).2

theorem apply_of_not_isFault {link : Link} (h : link.isFault = false) (c : Counters)
    (row : Value) :
    (∀ i, (link.apply c row).1 ≠ .interrupted i) ∧
      (link.apply c row).2.isFault = false := by
  cases link with
  | filter ps =>
    refine ⟨?_, rfl⟩
    intro i
    unfold apply
    dsimp only
    split <;> simp
  | project items => exact ⟨fun i => (by simp [apply]), rfl⟩
  | limit quota remaining => exact ⟨fun i => (by simp [apply]), rfl⟩
  | fault f => cases h

theorem asked_of_not_isFault {link : Link} (h : link.isFault = false) (c : Counters) :
    link.asked c = none ∧ link.ended c = none := by
  cases link with
  | filter | project | limit => exact ⟨rfl, rfl⟩
  | fault f => cases h

theorem close_of_isSound {links : List Link} (h : IsSound links) (c : Counters) :
    close c links = .ok () := by
  have hnone : links.findSome? (ended c) = none :=
    List.findSome?_eq_none_iff.mpr fun link hlink =>
      (asked_of_not_isFault (h link hlink) c).2
  unfold close
  rw [hnone]

theorem ask_of_isSound {links : List Link} (h : IsSound links) (c : Counters) :
    ask c links = if links.any isSpent then some (.ok ()) else none := by
  induction links with
  | nil => rfl
  | cons link links ih =>
    obtain ⟨hlink, hlinks⟩ := List.forall_mem_cons.mp h
    rw [ask, ih hlinks, close_of_isSound hlinks, (asked_of_not_isFault hlink c).1,
      List.any_cons]
    cases links.any isSpent <;> cases link.isSpent <;> rfl

/-- A chain without faults never breaks off on a row, and stays without. -/
theorem pass_of_isSound {links : List Link} (h : IsSound links) (c : Counters)
    (row : Value) :
    (∀ i, (pass c row links).1 ≠ .interrupted i) ∧ IsSound (pass c row links).2 := by
  induction links generalizing row with
  | nil => exact ⟨fun i => (by simp [pass]), h⟩
  | cons link links ih =>
    obtain ⟨hlink, hlinks⟩ := List.forall_mem_cons.mp h
    obtain ⟨happly, hstays⟩ := apply_of_not_isFault hlink c row
    rw [pass]
    generalize link.apply c row = applied at happly hstays
    obtain ⟨verdict, link'⟩ := applied
    cases verdict with
    | row out =>
      obtain ⟨hpass, hsound⟩ := ih hlinks out
      exact ⟨hpass, List.forall_mem_cons.mpr ⟨hstays, hsound⟩⟩
    | rejected => exact ⟨fun i => (by simp), List.forall_mem_cons.mpr ⟨hstays, hlinks⟩⟩
    | interrupted i => exact absurd rfl (happly i)

theorem pass_congr {links : List Link} (h : IsSound links) (c c' : Counters)
    (row : Value) :
    pass c row links = pass c' row links := by
  induction links generalizing row with
  | nil => rfl
  | cons link links ih =>
    obtain ⟨hlink, hlinks⟩ := List.forall_mem_cons.mp h
    have happly : link.apply c row = link.apply c' row := by
      cases link with
      | filter | project | limit => rfl
      | fault f => cases hlink
    rw [pass, pass, happly]
    split
    · rw [ih hlinks]
    · rfl

end Link

namespace Pipeline

theorem isOver_of_isSound {p : Pipeline} (h : Link.IsSound p.links) :
    p.isOver = (p.finished || p.isSpent) := by
  unfold isOver answer? isSpent
  rw [Link.ask_of_isSound h]
  cases p.links.any Link.isSpent <;> rfl

theorem asks_of_isSound {p : Pipeline} (h : Link.IsSound p.links)
    (live : p.isOver = false) :
    p.answer? = none := by
  have hspent : p.links.any Link.isSpent = false := by
    rw [isOver_of_isSound h] at live
    exact (Bool.or_eq_false_iff.mp live).2
  unfold answer?
  rw [Link.ask_of_isSound h, hspent]
  rfl

theorem receive_of_isSound {p : Pipeline} (h : Link.IsSound p.links) (row : Value) :
    (∃ result, (p.receive row).1 = .ok result) ∧
      Link.IsSound (p.receive row).2.links := by
  obtain ⟨hpass, hsound⟩ :=
    Link.pass_of_isSound h { p.counters with scanned := p.counters.scanned + 1 } row
  unfold receive
  dsimp only
  split
  · exact ⟨⟨_, rfl⟩, hsound⟩
  · exact ⟨⟨_, rfl⟩, hsound⟩
  · rename_i i hverdict
    exact absurd hverdict (hpass i)

theorem take_ended {p : Pipeline} (h : Link.IsSound p.links) (live : p.isOver = false) :
    p.take (.ok .ended) = (.ok .finished, p.countStep.finish) := by
  have hclose : Link.close p.countStep.counters p.countStep.links = .ok () :=
    Link.close_of_isSound h _
  rw [take_of_asks (asks_of_isSound h live)]
  dsimp only [accept]
  rw [hclose]
  rfl

/-- A chain without faults takes whatever a read gives, and stays without. -/
theorem take_of_isSound {p : Pipeline} (h : Link.IsSound p.links)
    (live : p.isOver = false) (progress : Progress) :
    (∃ result, (p.take (.ok progress)).1 = .ok result) ∧
      Link.IsSound (p.take (.ok progress)).2.links := by
  have htake := take_of_asks (asks_of_isSound h live) (.ok progress)
  cases progress with
  | row row =>
    rw [htake]
    exact p.countStep.receive_of_isSound h row
  | pending =>
    rw [htake]
    exact ⟨⟨_, rfl⟩, h⟩
  | ended =>
    rw [take_ended h live]
    exact ⟨⟨_, rfl⟩, h⟩

/-- A read that gives something finds the end or takes a row from those to come. -/
theorem progress_take {p : Pipeline} {before after : List Value} {progress : Progress}
    (sound : Link.IsSound p.links) (live : p.isOver = false)
    (reads : Reads before (.ok progress) after) :
    (p.take (.ok progress)).2.finished = true ∨ after.length < before.length := by
  cases reads with
  | row row => exact .inr (Nat.lt_succ_self _)
  | ended =>
    rw [take_ended sound live]
    exact .inl rfl

/-- Step a pipeline so many times, whatever comes of each step. -/
def steps : Nat → Pipeline → Scans → Pipeline × Scans
  | 0, p, s => (p, s)
  | count + 1, p, s => steps count (p.step s).2.1 (p.step s).2.2

theorem steps_of_finished {p : Pipeline} (h : p.finished = true) (count : Nat) (s : Scans) :
    steps count p s = (p, s) := by
  induction count with
  | zero => rfl
  | succ count ih =>
    have hstep : p.step s = (.ok .finished, p, s) := by
      unfold step
      rw [if_pos h]
    rw [steps, hstep]
    exact ih

/-- What one step of a pipeline without faults does over a quiet scan: it keeps
the promise, and finds the end unless it takes a row. -/
structure QuietStep (p p' : Pipeline) (s s' : Scans) : Prop where
  fresh : p'.cached = false
  sound : Link.IsSound p'.links
  cursor : p'.cursor = p.cursor
  quiet : s'.IsQuiet p.cursor
  promise : p'.promise (s'.upcoming p.cursor) = p.promise (s.upcoming p.cursor)
  progress : p'.finished = true ∨ (s'.upcoming p.cursor).length <
    (s.upcoming p.cursor).length

theorem quietStep_step {p : Pipeline} {s : Scans} (fresh : p.cached = false)
    (sound : Link.IsSound p.links) (quiet : s.IsQuiet p.cursor) :
    QuietStep p (p.step s).2.1 s (p.step s).2.2 := by
  cases hover : p.isOver with
  | true =>
    rw [step_of_isOver hover]
    have hsame : p.stop.cached = p.cached ∧ p.stop.links = p.links ∧
        p.stop.cursor = p.cursor := by
      unfold stop
      split <;> exact ⟨rfl, rfl, rfl⟩
    refine ⟨hsame.1.trans fresh, hsame.2.1 ▸ sound, hsame.2.2, quiet, ?_,
      .inl p.finished_stop⟩
    rw [promise_of_finished p.finished_stop, rows_stop, promise_of_isOver hover]
  | false =>
    rw [step_of_not_isOver hover, scansAfter_of_asks (asks_of_isSound sound hover)]
    have hread : s.read p.cursor p.cached = s.pull p.cursor := by rw [fresh]; rfl
    obtain ⟨⟨progress, hpull⟩, hquiet⟩ := quiet.pull
    have hreads := (Scans.pullCase quiet.isOpen).reads
    rw [hread]
    rw [hpull] at hreads ⊢
    have hscan := p.sameScan_take (.ok progress)
    obtain ⟨⟨result, hresult⟩, hlinks⟩ := take_of_isSound sound hover progress
    exact ⟨hscan.cached.trans fresh, hlinks, hscan.cursor, hquiet,
      promise_take hover hreads hresult, progress_take sound hover hreads⟩

/-- A pipeline without faults over a quiet scan keeps its promise to the end,
which it finds after at most one step more than there are rows to come. -/
theorem steps_of_isQuiet (count : Nat) {p : Pipeline} {s : Scans}
    (fresh : p.cached = false) (sound : Link.IsSound p.links)
    (quiet : s.IsQuiet p.cursor) (hcount : (s.upcoming p.cursor).length ≤ count) :
    (steps (count + 1) p s).1.finished = true ∧
      (steps (count + 1) p s).1.rows.toList = p.promise (s.upcoming p.cursor) := by
  induction count generalizing p s with
  | zero =>
    have hstep := quietStep_step fresh sound quiet
    have hfinished : (p.step s).2.1.finished = true :=
      hstep.progress.resolve_right (by omega)
    exact ⟨hfinished, (promise_of_finished hfinished _).symm.trans hstep.promise⟩
  | succ count ih =>
    have hstep := quietStep_step fresh sound quiet
    rw [steps]
    rcases hstep.progress with hfinished | hshorter
    · rw [steps_of_finished hfinished]
      exact ⟨hfinished, (promise_of_finished hfinished _).symm.trans hstep.promise⟩
    · rw [← hstep.promise]
      have hrest := ih hstep.fresh hstep.sound (hstep.cursor ▸ hstep.quiet)
        (by rw [hstep.cursor]; omega)
      rw [hstep.cursor] at hrest
      exact hrest

/-- A chain run by itself over rows that come without failures. -/
def alone (links : List Link) (rows : List Value) : Pipeline :=
  (steps (rows.length + 1) { kind := .allNodes, cursor := 0, links := Link.sound links }
    (.ofRows rows)).1

theorem scriptRows_map_row (rows : List Value) :
    Source.scriptRows (rows.map .row) = rows := by
  induction rows with
  | nil => rfl
  | cons row rows ih => exact congrArg (row :: ·) ih

/-- Run by itself, a chain finds its end and has what its links yield of the rows. -/
theorem alone_spec (links : List Link) (rows : List Value) :
    (alone links rows).finished = true ∧ (alone links rows).rows.toList =
      Link.yield links rows := by
  have hquiet : (Scans.ofRows rows).IsQuiet 0 := by
    refine ⟨Nat.zero_lt_one, rfl, ?_⟩
    intro entry hentry
    obtain ⟨row, -, rfl⟩ := List.mem_map.mp hentry
    rfl
  have hupcoming : (Scans.ofRows rows).upcoming 0 = rows := scriptRows_map_row rows
  have hsteps := steps_of_isQuiet rows.length
    (p := { kind := .allNodes, cursor := 0, links := Link.sound links }) rfl
    (Link.isSound_sound links) hquiet (Nat.le_of_eq (congrArg List.length hupcoming))
  rw [hupcoming] at hsteps
  refine ⟨hsteps.1, hsteps.2.trans ?_⟩
  exact Link.yield_sound links rows

end Pipeline

end Lockstep
