import Lockstep.Scan.Table
set_option autoImplicit false

/-!
# The rows still to come

What a source, a cursor or a numbered cursor of the table gives from now on when
nothing stands in its way.  A pull that gives a row takes the first of them, a
pull that finds the end finds none, and a pull that fails takes none.
-/

namespace Lockstep

/-! ## Graphs -/

namespace Graph

theorem pairwise_nodes (g : Graph) :
    g.nodes.toList.Pairwise fun a b => a.id < b.id := by
  rw [List.pairwise_iff_getElem]
  intro i j hi hj hlt
  rw [Array.length_toList] at hi hj
  rw [Array.getElem_toList, Array.getElem_toList, g.numbered i hi, g.numbered j hj]
  exact hlt

/-- The rows of the nodes of a kind at a position or later, in the
order of the nodes. -/
def rowsFrom (g : Graph) (kind : ScanKind) (position : Nat) : List Value :=
  ((g.nodes.toList.drop position).filter fun node => node.isIn kind).map Node.toRow

theorem rowsFrom_of_size_le {g : Graph} {position : Nat} (h : g.nodes.size ≤ position)
    (kind : ScanKind) : g.rowsFrom kind position = [] := by
  unfold rowsFrom
  rw [List.drop_of_length_le (by simpa using h)]
  rfl

/-- The node found is of the kind, and those passed over are not. -/
theorem findFrom?_eq_some {g : Graph} {kind : ScanKind} {position : Nat} {node : Node}
    (h : g.findFrom? kind position = some node) :
    position ≤ node.id ∧ g.nodes.toList[node.id]? = some node ∧ node.isIn kind = true ∧
      ∀ i, position ≤ i → i < node.id → ∀ other ∈ g.nodes.toList[i]?,
        other.isIn kind = false := by
  induction position using findFrom?.induct g kind with
  | case1 position hlt hin =>
    rw [findFrom?, dif_pos hlt, if_pos hin] at h
    cases h
    rw [g.numbered position hlt]
    refine ⟨Nat.le_refl _, ?_, hin,
      fun i hle hless => absurd hless (Nat.not_lt.mpr hle)⟩
    rw [Array.getElem?_toList, Array.getElem?_eq_getElem hlt]
  | case2 position hlt hout ih =>
    rw [findFrom?, dif_pos hlt, if_neg hout] at h
    obtain ⟨hle, hnode, hin, hpassed⟩ := ih h
    refine ⟨Nat.le_of_succ_le hle, hnode, hin, ?_⟩
    intro i hi hless other hother
    rcases Nat.eq_or_lt_of_le hi with rfl | hgt
    · rw [Array.getElem?_toList, Array.getElem?_eq_getElem hlt] at hother
      cases hother
      exact Bool.eq_false_iff.mpr hout
    · exact hpassed i hgt hless other hother
  | case3 position hge =>
    rw [findFrom?, dif_neg hge] at h
    cases h

/-- If none is found there is none. -/
theorem findFrom?_eq_none {g : Graph} {kind : ScanKind} {position : Nat}
    (h : g.findFrom? kind position = none) :
    ∀ i, position ≤ i → ∀ other ∈ g.nodes.toList[i]?, other.isIn kind = false := by
  induction position using findFrom?.induct g kind with
  | case1 position hlt hin =>
    rw [findFrom?, dif_pos hlt, if_pos hin] at h
    cases h
  | case2 position hlt hout ih =>
    rw [findFrom?, dif_pos hlt, if_neg hout] at h
    intro i hi other hother
    rcases Nat.eq_or_lt_of_le hi with rfl | hgt
    · rw [Array.getElem?_toList, Array.getElem?_eq_getElem hlt] at hother
      cases hother
      exact Bool.eq_false_iff.mpr hout
    · exact ih h i hgt other hother
  | case3 position hge =>
    intro i hi other hother
    rw [Array.getElem?_toList, Array.getElem?_eq_none (by omega)] at hother
    cases hother

/-- The first node found is where the rows go on, and the search for the next
starts behind it. -/
theorem rowsFrom_of_findFrom? {g : Graph} {kind : ScanKind} {position : Nat}
    {node : Node} (h : g.findFrom? kind position = some node) :
    g.rowsFrom kind position = node.toRow :: g.rowsFrom kind (node.id + 1) := by
  induction position using findFrom?.induct g kind with
  | case1 position hlt hin =>
    rw [findFrom?, dif_pos hlt, if_pos hin] at h
    cases h
    unfold rowsFrom
    rw [g.numbered position hlt, List.drop_eq_getElem_cons (by simpa using hlt),
      List.filter_cons_of_pos (by simpa using hin)]
    rfl
  | case2 position hlt hout ih =>
    rw [findFrom?, dif_pos hlt, if_neg hout] at h
    rw [← ih h]
    unfold rowsFrom
    rw [List.drop_eq_getElem_cons (by simpa using hlt),
      List.filter_cons_of_neg (by simpa using hout)]
  | case3 position hge =>
    rw [findFrom?, dif_neg hge] at h
    cases h

/-- Where no node is found no row is left. -/
theorem rowsFrom_of_findFrom?_eq_none {g : Graph} {kind : ScanKind} {position : Nat}
    (h : g.findFrom? kind position = none) : g.rowsFrom kind position = [] := by
  induction position using findFrom?.induct g kind with
  | case1 position hlt hin =>
    rw [findFrom?, dif_pos hlt, if_pos hin] at h
    cases h
  | case2 position hlt hout ih =>
    rw [findFrom?, dif_pos hlt, if_neg hout] at h
    rw [← ih h]
    unfold rowsFrom
    rw [List.drop_eq_getElem_cons (by simpa using hlt),
      List.filter_cons_of_neg (by simpa using hout)]
  | case3 position hge => exact rowsFrom_of_size_le (Nat.le_of_not_lt hge) kind

theorem rowsFrom_congr {g g' : Graph} (h : g'.nodes = g.nodes) :
    g'.rowsFrom = g.rowsFrom := by
  funext kind position
  unfold rowsFrom
  rw [h]

end Graph

/-! ## Sources -/

namespace Source

/-- The rows of a script up to the first entry that reports the end. -/
def scriptRows : List ScriptEntry → List Value
  | [] => []
  | .row row :: rest => row :: scriptRows rest
  | .interruption _ :: rest => scriptRows rest
  | .ending :: _ => []

/-- The rows that a source gives from now on. -/
def rows (g : Graph) : Source → List Value
  | .graph kind position => g.rowsFrom kind position
  | .script entries => scriptRows entries

theorem rows_congr {g g' : Graph} (h : g'.nodes = g.nodes) (source : Source) :
    source.rows g' = source.rows g := by
  cases source with
  | graph kind position =>
    exact congrFun (congrFun (Graph.rowsFrom_congr h) kind) position
  | script entries => rfl

@[simp] theorem nodes_next (g : Graph) (source : Source) :
    (source.next g).graph.nodes = g.nodes := by
  unfold next
  split
  · split
    · exact g.nodes_afterRead
    · split <;> rfl
  all_goals rfl

/-- What a read gives is the first of the rows, or their end; a read that
fails takes none. -/
theorem rows_next (g : Graph) (source : Source) :
    source.rows g =
      match (source.next g).outcome with
      | .ok (some row) => row :: (source.next g).source.rows (source.next g).graph
      | .ok none => []
      | .error _ => (source.next g).source.rows (source.next g).graph := by
  cases source with
  | graph kind position =>
    cases hobstacle : g.obstacle? with
    | some failure =>
      simp only [next, hobstacle]
      exact (rows_congr g.nodes_afterRead _).symm
    | none =>
      cases hfound : g.findFrom? kind position with
      | some node =>
        simp only [next, hobstacle, hfound]
        exact Graph.rowsFrom_of_findFrom? hfound
      | none =>
        simp only [next, hobstacle, hfound]
        exact Graph.rowsFrom_of_findFrom?_eq_none hfound
  | script entries =>
    cases entries with
    | nil => rfl
    | cons entry rest => cases entry <;> rfl

end Source

/-! ## Cursors -/

namespace Cursor

/-- The rows that a cursor gives from now on. -/
def upcoming (g : Graph) (c : Cursor) : List Value :=
  if c.isExhausted then [] else c.source.rows g

theorem upcoming_congr {g g' : Graph} (h : g'.nodes = g.nodes) (c : Cursor) :
    c.upcoming g' = c.upcoming g := by
  unfold upcoming
  rw [Source.rows_congr h]

theorem upcoming_of_isExhausted {c : Cursor} (h : c.isExhausted = true) (g : Graph) :
    c.upcoming g = [] := if_pos h

/-- What one pull can do to a cursor. -/
inductive PullCase (c : Cursor) (g : Graph) :
    Except Interruption Progress × Cursor × Graph → Prop
  /-- the end had been found before -/
  | again (sound : c.broken = false) (ended : c.isExhausted = true) :
      PullCase c g (.ok .ended, c, g)
  /-- the pull gave a row and remembers it -/
  | row (sound : c.broken = false) (live : c.isExhausted = false) {row : Value}
      {c' : Cursor}
      {g' : Graph} (nodes : g'.nodes = g.nodes) (latest : c'.latest = .row row)
      (pulls : c'.pulls = c.pulls + 1) (sound' : c'.broken = false)
      (upcoming : c.upcoming g = row :: c'.upcoming g') :
        PullCase c g (.ok (.row row), c', g')
  /-- the pull found the end -/
  | ended (sound : c.broken = false) (live : c.isExhausted = false) {c' : Cursor}
      {g' : Graph} (nodes : g'.nodes = g.nodes) (latest : c'.latest = .exhausted)
      (pulls : c'.pulls = c.pulls + 1) (sound' : c'.broken = false)
      (upcoming : c.upcoming g = []) : PullCase c g (.ok .ended, c', g')
  /-- the pull failed and moved nothing -/
  | failed (i : Interruption) {c' : Cursor} {g' : Graph} (nodes : g'.nodes = g.nodes)
      (latest : c'.latest = c.latest) (pulls : c'.pulls = c.pulls)
      (upcoming : c'.upcoming g' = c.upcoming g) : PullCase c g (.error i, c', g')

/-- Every pull is one of these. -/
theorem pullCase (c : Cursor) (g : Graph) : c.PullCase g (c.pull g) := by
  unfold pull
  cases hsound : c.broken with
  | true => exact .failed _ rfl rfl rfl rfl
  | false =>
    cases hlive : c.isExhausted with
    | true => exact .again hsound hlive
    | false =>
      have hrows := c.source.rows_next g
      have hnodes := c.source.nodes_next g
      have hupcoming : c.upcoming g = c.source.rows g := by
        unfold upcoming
        rw [hlive]
        rfl
      simp only [Bool.false_eq_true, if_false]
      cases houtcome : (c.source.next g).outcome with
      | error i =>
        rw [houtcome] at hrows
        have hfailed : ∀ broken, Cursor.upcoming (c.source.next g).graph
            { c with source := (c.source.next g).source, broken := broken } = c.upcoming g := by
          intro broken
          rw [hupcoming, hrows]
          exact if_neg (by simpa [isExhausted] using hlive)
        cases i with
        | failed f => exact .failed _ hnodes rfl rfl (hfailed _)
        | crashed crash => exact .failed _ hnodes rfl rfl (hfailed _)
      | ok found =>
        rw [houtcome] at hrows
        cases found with
        | some row =>
          refine .row hsound hlive hnodes rfl rfl rfl ?_
          rw [hupcoming, hrows]
          rfl
        | none => exact .ended hsound hlive hnodes rfl rfl rfl (hupcoming.trans hrows)

theorem PullCase.unmoved {c c' : Cursor} {g g' : Graph} {i : Interruption}
    (h : c.PullCase g (.error i, c', g')) :
    c'.latest = c.latest ∧ c'.pulls = c.pulls ∧ c'.upcoming g' = c.upcoming g := by
  cases h with
  | failed _ _ latest pulls upcoming => exact ⟨latest, pulls, upcoming⟩

/-- Pulls that give something of two cursors with the same rows to come give the
same, and bring both cursors equally far. -/
theorem PullCase.agree {c c' d d' : Cursor} {g g' k k' : Graph}
    {progress progress' : Progress} (hc : c.PullCase g (.ok progress, c', g'))
    (hd : d.PullCase k (.ok progress', d', k')) (latest : c.latest = d.latest)
    (pulls : c.pulls = d.pulls) (upcoming : c.upcoming g = d.upcoming k) :
    progress = progress' ∧ c'.latest = d'.latest ∧ c'.pulls = d'.pulls ∧
      c'.upcoming g' = d'.upcoming k' := by
  have hended : c.isExhausted = d.isExhausted := by
    unfold isExhausted
    rw [latest]
  cases hc with
  | again _ ended =>
    cases hd with
    | again _ _ => exact ⟨rfl, latest, pulls, upcoming⟩
    | row _ live _ _ _ _ _ | ended _ live _ _ _ _ _ =>
      rw [hended, live] at ended
      cases ended
  | row _ live _ latest' pulls' _ rows =>
    cases hd with
    | again _ ended =>
      rw [← hended, live] at ended
      cases ended
    | row _ _ _ latest'' pulls'' _ rows' =>
      rw [rows, rows'] at upcoming
      obtain ⟨rfl, hrest⟩ := List.cons.inj upcoming
      exact ⟨rfl, latest'.trans latest''.symm, by omega, hrest⟩
    | ended _ _ _ _ _ _ none =>
      rw [rows, none] at upcoming
      cases upcoming
  | ended _ live _ latest' pulls' _ none =>
    cases hd with
    | again _ ended =>
      rw [← hended, live] at ended
      cases ended
    | row _ _ _ _ _ _ rows' =>
      rw [none, rows'] at upcoming
      cases upcoming
    | ended _ _ _ latest'' pulls'' _ none' =>
      refine ⟨rfl, latest'.trans latest''.symm, by omega, ?_⟩
      rw [upcoming_of_isExhausted (by rw [isExhausted, latest']),
        upcoming_of_isExhausted (by rw [isExhausted, latest''])]

end Cursor

/-! ## The table -/

namespace Scans

/-- The rows that a cursor of the table gives from now on. -/
def upcoming (s : Scans) (id : CursorId) : List Value := (s.cursor id).upcoming s.graph

/-- Whether the table holds a cursor of this number. -/
def IsOpen (s : Scans) (id : CursorId) : Prop := id < s.cursors.size

instance (s : Scans) (id : CursorId) : Decidable (s.IsOpen id) :=
  inferInstanceAs (Decidable (_ < _))

/-- What a pull of one cursor leaves alone: the nodes, the numbers given out and
every other cursor. -/
structure OnlyMoves (id : CursorId) (s s' : Scans) : Prop where
  nodes : s'.graph.nodes = s.graph.nodes
  size : s'.cursors.size = s.cursors.size
  others : ∀ other, other ≠ id → s'.cursor other = s.cursor other

namespace OnlyMoves

variable {id : CursorId} {s s' s'' : Scans}

theorem refl (id : CursorId) (s : Scans) : OnlyMoves id s s :=
  ⟨rfl, rfl, fun _ _ => rfl⟩

theorem trans (h : OnlyMoves id s s') (h' : OnlyMoves id s' s'') :
    OnlyMoves id s s'' where
  nodes := h'.nodes.trans h.nodes
  size := h'.size.trans h.size
  others := fun other hother => (h'.others other hother).trans (h.others other hother)

theorem isOpen (h : OnlyMoves id s s') {other : CursorId} (hopen : s.IsOpen other) :
    s'.IsOpen other := by
  unfold IsOpen
  rw [h.size]
  exact hopen

theorem upcoming (h : OnlyMoves id s s') {other : CursorId} (hother : other ≠ id) :
    s'.upcoming other = s.upcoming other := by
  unfold Scans.upcoming
  rw [h.others other hother, Cursor.upcoming_congr h.nodes]

end OnlyMoves

theorem cursor_pull_self {s : Scans} {id : CursorId} (hopen : s.IsOpen id) :
    (s.pull id).2.cursor id = ((s.cursor id).pull s.graph).2.1 := by
  unfold pull cursor
  rw [Array.getD_eq_getD_getElem?, Array.getElem?_setIfInBounds_self_of_lt hopen]
  rfl

theorem onlyMoves_pull (s : Scans) (id : CursorId) : OnlyMoves id s (s.pull id).2 where
  nodes := by
    have hcase := (s.cursor id).pullCase s.graph
    unfold pull
    generalize (s.cursor id).pull s.graph = pulled at hcase
    cases hcase <;> first | rfl | assumption
  size := Array.size_setIfInBounds
  others := by
    intro other hother
    unfold pull cursor
    simp only [Array.getD_eq_getD_getElem?]
    rw [Array.getElem?_setIfInBounds_ne (Ne.symm hother)]

theorem pullCase {s : Scans} {id : CursorId} (hopen : s.IsOpen id) :
    (s.cursor id).PullCase s.graph
      ((s.pull id).1, (s.pull id).2.cursor id, (s.pull id).2.graph) := by
  rw [cursor_pull_self hopen]
  exact (s.cursor id).pullCase s.graph

/-! ## Replacing a cursor -/

/-- The table with another cursor in the place of one. -/
def withCursor (t : Scans) (id : CursorId) (c : Cursor) : Scans :=
  { t with cursors := t.cursors.setIfInBounds id c }

theorem cursor_withCursor {t : Scans} {id : CursorId} (hopen : t.IsOpen id) (c : Cursor) :
    (t.withCursor id c).cursor id = c := by
  unfold withCursor cursor
  rw [Array.getD_eq_getD_getElem?, Array.getElem?_setIfInBounds_self_of_lt hopen]
  rfl

theorem withCursor_cursor {t : Scans} {id : CursorId} (hopen : t.IsOpen id) :
    t.withCursor id (t.cursor id) = t := by
  have hlt : id < t.cursors.size := hopen
  have hget : t.cursor id = t.cursors[id] := by
    unfold cursor
    rw [Array.getD_eq_getD_getElem?, Array.getElem?_eq_getElem hlt]
    rfl
  unfold withCursor
  rw [hget, Array.setIfInBounds_def, dif_pos hlt, Array.set_getElem_self]

/-! ## Opening a scan -/

theorem cursor_openCursor_self (s : Scans) (source : Source) :
    (s.openCursor source).2.cursor s.cursors.size = { source := source } := by
  unfold openCursor cursor
  rw [Array.getD_eq_getD_getElem?, Array.getElem?_push_size]
  rfl

theorem isOpen_openCursor_self (s : Scans) (source : Source) :
    (s.openCursor source).2.IsOpen s.cursors.size := by
  show s.cursors.size < (s.cursors.push _).size
  rw [Array.size_push]
  exact Nat.lt_succ_self _

theorem cursor_openCursor {s : Scans} {id : CursorId} (hopen : s.IsOpen id)
    (source : Source) :
    (s.openCursor source).2.cursor id = s.cursor id := by
  unfold openCursor cursor
  rw [Array.getD_eq_getD_getElem?, Array.getD_eq_getD_getElem?,
    Array.getElem?_push_lt hopen, Array.getElem?_eq_getElem hopen]

theorem upcoming_openCursor {s : Scans} {id : CursorId} (hopen : s.IsOpen id)
    (source : Source) :
    (s.openCursor source).2.upcoming id = s.upcoming id := by
  unfold upcoming
  rw [cursor_openCursor hopen]
  rfl

theorem isOpen_openCursor {s : Scans} {id : CursorId} (hopen : s.IsOpen id)
    (source : Source) :
    (s.openCursor source).2.IsOpen id := by
  show id < (s.cursors.push _).size
  rw [Array.size_push]
  exact Nat.lt_succ_of_lt hopen

end Scans

end Lockstep
