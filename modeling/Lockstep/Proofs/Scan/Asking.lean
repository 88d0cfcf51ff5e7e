import Lockstep.Proofs.Scan.Upcoming
set_option autoImplicit false

/-!
# How often a source is asked

A scan is seen through what comes of it, so how often its source was asked shows
in two things: what is done hangs on no more than the first so many answers of
the source, and it leaves the source as that many reads would.
-/

namespace Lockstep

/-! ## Feeds -/

/-- What a scan is fed from: a source, and the graph that the source may read. -/
structure Feed where
  source : Source
  graph : Graph

namespace Feed

/-- The feed after it was asked so many times. -/
def asked : Nat → Feed → Feed
  | 0, f => f
  | count + 1, f =>
    asked count ⟨(f.source.next f.graph).source, (f.source.next f.graph).graph⟩

/-- What the feed answers to so many calls. -/
def answers : Nat → Feed → List (Except Interruption (Option Value))
  | 0, _ => []
  | count + 1, f =>
    (f.source.next f.graph).outcome ::
      answers count ⟨(f.source.next f.graph).source, (f.source.next f.graph).graph⟩

end Feed

namespace Cursor

/-- How often a pull of the cursor asks the source. -/
def calls (c : Cursor) : Nat := if c.broken || c.isExhausted then 0 else 1

theorem calls_le_one (c : Cursor) : c.calls ≤ 1 := by
  unfold calls
  split
  · exact Nat.zero_le 1
  · exact Nat.le_refl 1

/-- A pull makes the same of every feed that gives the answers it asks for. -/
theorem pull_fed (c : Cursor) (g : Graph) {f : Feed}
    (same : f.answers c.calls = Feed.answers c.calls ⟨c.source, g⟩) :
    pull { c with source := f.source } f.graph =
      ((c.pull g).1, { (c.pull g).2.1 with source := (f.asked c.calls).source },
        (f.asked c.calls).graph) := by
  cases hcalls : c.broken || c.isExhausted with
  | true =>
    have hzero : c.calls = 0 := if_pos hcalls
    rw [hzero]
    rw [Bool.or_eq_true] at hcalls
    unfold pull
    rcases hcalls with hbroken | hended
    · rw [if_pos hbroken, if_pos hbroken]
      rfl
    · have hended' : isExhausted { c with source := f.source } = true := hended
      rw [if_pos hended, if_pos hended']
      split <;> rfl
  | false =>
    have hone : c.calls = 1 := by
      unfold calls
      rw [hcalls]
      rfl
    rw [hone] at same ⊢
    obtain ⟨hbroken, hended⟩ := Bool.or_eq_false_iff.mp hcalls
    have hended' : isExhausted { c with source := f.source } = false := hended
    have hanswer : (f.source.next f.graph).outcome = (c.source.next g).outcome :=
      (List.cons.inj same).1
    unfold pull
    rw [hended, hended']
    simp only [hbroken, Bool.false_eq_true, if_false, hanswer, Feed.asked]
    -- the answer decides alone how the cursor goes on
    cases (c.source.next g).outcome with
    | error i => cases i <;> rfl
    | ok found => cases found <;> rfl

end Cursor

namespace Scans

/-! ## Feeding a cursor of the table -/

/-- What a cursor of the table is fed from. -/
def feed (s : Scans) (id : CursorId) : Feed := ⟨(s.cursor id).source, s.graph⟩

/-- The table with a cursor fed from elsewhere. -/
def refeed (s : Scans) (id : CursorId) (f : Feed) : Scans :=
  { s.withCursor id { s.cursor id with source := f.source } with graph := f.graph }

variable {id : CursorId} {s : Scans}

theorem cursor_refeed (hopen : s.IsOpen id) (f : Feed) :
    (s.refeed id f).cursor id = { s.cursor id with source := f.source } :=
  cursor_withCursor (t := s) hopen _

/-! ## Uses of a table -/

/-- `use` asks the source of a cursor so many times, and no other source: every feed
with those answers comes to the same, and is left as after that many reads. -/
structure Asks {α : Type} (use : Scans → α × Scans) (id : CursorId) (s : Scans)
    (calls : Nat) : Prop where
  onlyMoves : OnlyMoves id s (use s).2
  fed : ∀ f : Feed, f.answers calls = (s.feed id).answers calls →
    use (s.refeed id f) = ((use s).1, (use s).2.refeed id (f.asked calls))

namespace Asks

variable {α β : Type} {use : Scans → α × Scans} {calls : Nat}

theorem map (h : Asks use id s calls) (make : α → β) :
    Asks (fun s => (make (use s).1, (use s).2)) id s calls where
  onlyMoves := h.onlyMoves
  fed := fun f same => by rw [h.fed f same]

end Asks

theorem asks_nothing {α : Type} (result : α) (id : CursorId) (s : Scans) :
    Asks (fun s => (result, s)) id s 0 where
  onlyMoves := .refl id s
  fed := fun _ _ => rfl

theorem asks_readCached (hopen : s.IsOpen id) :
    Asks (fun s => s.read id true) id s 0 where
  onlyMoves := .refl id s
  fed := fun f _ => by
    have hread : ((s.refeed id f).cursor id).readCached = (s.cursor id).readCached := by
      rw [cursor_refeed hopen]
      rfl
    exact congrArg (fun outcome => (outcome, s.refeed id f)) hread

/-- A pull asks the source at most once. -/
theorem asks_pull (hopen : s.IsOpen id) :
    Asks (fun s => s.pull id) id s (s.cursor id).calls where
  onlyMoves := s.onlyMoves_pull id
  fed := fun f same => by
    have hpulled := (s.cursor id).pull_fed s.graph same
    have hcursor : (s.pull id).2.cursor id = ((s.cursor id).pull s.graph).2.1 :=
      cursor_pull_self hopen
    have hrefed : (s.pull id).2.refeed id (f.asked (s.cursor id).calls) =
        { graph := (f.asked (s.cursor id).calls).graph
          cursors := s.cursors.setIfInBounds id
            { ((s.cursor id).pull s.graph).2.1 with source :=
                (f.asked (s.cursor id).calls).source } } := by
      simp only [refeed, withCursor, hcursor]
      simp only [pull, Array.setIfInBounds_setIfInBounds]
    rw [hrefed]
    unfold pull
    rw [cursor_refeed hopen, show (s.refeed id f).graph = f.graph from rfl, hpulled]
    simp only [refeed, withCursor, Array.setIfInBounds_setIfInBounds]

theorem asks_read (hopen : s.IsOpen id) (cached : Bool) :
    Asks (fun s => s.read id cached) id s
      (if cached then 0 else (s.cursor id).calls) := by
  cases cached with
  | true => exact asks_readCached hopen
  | false => exact asks_pull hopen

end Scans

end Lockstep
