import Lockstep.Proofs.Scan.Asking
import Lockstep.Proofs.Scan.Disturbance
set_option autoImplicit false

/-!
# What a scan of the graph delivers

A scan of the graph stands at a position, and everything before it was
delivered: one row for each node of the kind below the position, in the order of
the nodes.  Whatever happens between two pulls keeps this so.  New nodes come in
behind, a disturbance changes no node, other scans have cursors of their own,
and a pull that fails moves nothing.  Only a pull that finds no more nodes ends
the scan, and from then on the graph is not read for it.
-/

namespace Lockstep

/-! ## Nodes below a position -/

namespace Graph

variable {g : Graph} {kind : ScanKind} {position : Nat} {node : Node}

/-- The nodes of a kind below a position, in order. -/
def nodesBelow (g : Graph) (kind : ScanKind) (position : Nat) : List Node :=
  (g.nodes.toList.take position).filter fun node => node.isIn kind

theorem pairwise_nodesBelow (g : Graph) (kind : ScanKind) (position : Nat) :
    (g.nodesBelow kind position).Pairwise fun a b => a.id < b.id :=
  g.pairwise_nodes.sublist (List.filter_sublist.trans (List.take_sublist _ _))

theorem mem_nodesBelow_iff :
    node ∈ g.nodesBelow kind position ↔
      node ∈ g.nodes.toList ∧ node.isIn kind = true ∧ node.id < position := by
  have hnumber : ∀ (i : Nat) (h : i < g.nodes.toList.length),
      g.nodes.toList[i].id = i := by
    intro i h
    rw [Array.length_toList] at h
    rw [Array.getElem_toList, g.numbered i h]
  unfold nodesBelow
  rw [List.mem_filter, List.mem_take_iff_getElem]
  constructor
  · rintro ⟨⟨i, hi, rfl⟩, hin⟩
    refine ⟨List.getElem_mem _, hin, ?_⟩
    rw [hnumber i (by omega)]
    omega
  · rintro ⟨hmem, hin, hless⟩
    obtain ⟨i, hi, rfl⟩ := List.mem_iff_getElem.mp hmem
    rw [hnumber i hi] at hless
    exact ⟨⟨i, by omega, rfl⟩, hin⟩

theorem nodesBelow_succ (h : position < g.nodes.size) :
    g.nodesBelow kind (position + 1) =
      g.nodesBelow kind position ++ if g.nodes[position].isIn kind then
        [g.nodes[position]] else [] := by
  have hlt : position < g.nodes.toList.length := by simpa using h
  unfold nodesBelow
  rw [List.take_succ_eq_append_getElem hlt, List.filter_append, Array.getElem_toList,
    List.filter_cons, List.filter_nil]

/-- A search finds the only node of the kind from its start up to the node. -/
theorem nodesBelow_of_findFrom? (h : g.findFrom? kind position = some node) :
    node.id < g.nodes.size ∧ g.nodesBelow kind (node.id + 1) =
      g.nodesBelow kind position ++ [node] := by
  induction position using findFrom?.induct g kind with
  | case1 position hlt hin =>
    rw [findFrom?, dif_pos hlt, if_pos hin] at h
    cases h
    rw [g.numbered position hlt, nodesBelow_succ hlt, if_pos hin]
    exact ⟨hlt, rfl⟩
  | case2 position hlt hout ih =>
    rw [findFrom?, dif_pos hlt, if_neg hout] at h
    rw [nodesBelow_succ hlt, if_neg hout, List.append_nil] at ih
    exact ih h
  | case3 position hge =>
    rw [findFrom?, dif_neg hge] at h
    cases h

/-- A search that finds nothing has passed all nodes. -/
theorem nodesBelow_of_findFrom?_eq_none (h : g.findFrom? kind position = none)
    (passed : position ≤ g.nodes.size) :
    g.nodesBelow kind g.nodes.size = g.nodesBelow kind position := by
  induction position using findFrom?.induct g kind with
  | case1 position hlt hin =>
    rw [findFrom?, dif_pos hlt, if_pos hin] at h
    cases h
  | case2 position hlt hout ih =>
    rw [findFrom?, dif_pos hlt, if_neg hout] at h
    rw [nodesBelow_succ hlt, if_neg hout, List.append_nil] at ih
    exact ih h hlt
  | case3 position hge => rw [Nat.le_antisymm passed (Nat.not_lt.mp hge)]

theorem nodesBelow_congr {g' : Graph} (h : g'.nodes = g.nodes) :
    g'.nodesBelow = g.nodesBelow := by
  funext kind position
  unfold nodesBelow
  rw [h]

theorem nodesBelow_create (passed : position ≤ g.nodes.size) (labels : List String)
    (properties : Fields) :
    (g.create labels properties).nodesBelow kind position =
      g.nodesBelow kind position := by
  have hnodes : (g.create labels properties).nodes.toList =
      g.nodes.toList ++ [⟨g.nodes.size, labels, properties⟩] := Array.toList_push
  unfold nodesBelow
  rw [hnodes, List.take_append_of_le_length (by simpa using passed)]

end Graph

/-! ## What pulls have given -/

namespace Progress

/-- The row, if there is one. -/
def row? : Progress → Option Value
  | .row value => some value
  | _ => none

/-- Whether it is the end. -/
def isEnd : Progress → Bool
  | .ended => true
  | _ => false

/-- The rows among what pulls have given. -/
def rows (given : List Progress) : List Value := given.filterMap row?

/-- Whether a pull has given the end. -/
def hasEnd (given : List Progress) : Bool := given.any isEnd

@[simp] theorem rows_append_row (given : List Progress) (value : Value) :
    rows (given ++ [.row value]) = rows given ++ [value] := List.filterMap_append

@[simp] theorem rows_append_ended (given : List Progress) :
    rows (given ++ [.ended]) = rows given :=
  List.filterMap_append.trans (List.append_nil _)

@[simp] theorem hasEnd_append_row (given : List Progress) (value : Value) :
    hasEnd (given ++ [.row value]) = hasEnd given :=
  List.any_append.trans (Bool.or_false _)

@[simp] theorem hasEnd_append_ended (given : List Progress) :
    hasEnd (given ++ [.ended]) = true :=
  List.any_append.trans (Bool.or_true _)

end Progress

namespace Cursor

variable {c : Cursor} {g : Graph} {kind : ScanKind} {position : Nat}

/-- What a pull of a scan of the graph does. -/
inductive GraphPull (c : Cursor) (g : Graph) (kind : ScanKind) (position : Nat) :
    Except Interruption Progress × Cursor × Graph → Prop
  /-- nothing, since the end was found before -/
  | again (ended : c.isExhausted = true) :
      GraphPull c g kind position (.ok .ended, c, g)
  /-- the graph cannot be read, and the scan stays as it is -/
  | failed {f : Failure} (live : c.isExhausted = false)
      (obstacle : g.obstacle? = some f) :
      GraphPull c g kind position (.error (.failed f), c, g.afterRead)
  /-- it delivers the next node of the kind -/
  | row {node : Node} (live : c.isExhausted = false) (readable : g.obstacle? = none)
      (found : g.findFrom? kind position = some node) : GraphPull c g kind position
        (.ok (.row node.toRow), { c with
          source := .graph kind (node.id + 1)
          latest := .row node.toRow
          pulls := c.pulls + 1 }, g)
  /-- it passes all nodes that are left and ends -/
  | ended (live : c.isExhausted = false) (readable : g.obstacle? = none)
      (found : g.findFrom? kind position = none) : GraphPull c g kind position
        (.ok .ended, { c with
          source := .graph kind g.nodes.size
          latest := .exhausted
          pulls := c.pulls + 1 }, g)

theorem graphPull (source : c.source = .graph kind position) (sound : c.broken = false)
    (g : Graph) :
    c.GraphPull g kind position (c.pull g) := by
  cases hlive : c.isExhausted with
  | true =>
    rw [pull_of_isExhausted sound hlive]
    exact .again hlive
  | false =>
    obtain ⟨origin, latest, pulls, broken⟩ := c
    subst source sound
    unfold pull Source.next
    rw [hlive]
    simp only [Bool.false_eq_true, if_false]
    cases hobstacle : g.obstacle? with
    | some f => exact .failed hlive hobstacle
    | none =>
      cases hfound : g.findFrom? kind position with
      | some node => exact .row hlive hobstacle hfound
      | none => exact .ended hlive hobstacle hfound

theorem readCached_of_isExhausted (sound : c.broken = false)
    (ended : c.isExhausted = true) :
    c.readCached = .ok .ended :=
  readCached_of_pull (pull_of_isExhausted sound ended default)

/-- Where a scan of the graph stands when its pulls have given these: it has
delivered every node of the kind below its position, and remembers what the
latest success was. -/
structure Tells (c : Cursor) (g : Graph) (kind : ScanKind) (given : List Progress)
    (position : Nat) :
    Prop where
  source : c.source = .graph kind position
  sound : c.broken = false
  passed : position ≤ g.nodes.size
  rows : Progress.rows given = (g.nodesBelow kind position).map Node.toRow
  latest : c.readCached = .ok (given.getLast?.getD .pending)
  ended : c.isExhausted = Progress.hasEnd given
  pulls : c.pulls = (Progress.rows given).length + if Progress.hasEnd given then 1 else 0

theorem tells_new (g : Graph) (kind : ScanKind) :
    Tells { source := .graph kind 0 } g kind [] 0 :=
  ⟨rfl, rfl, Nat.zero_le _, rfl, rfl, rfl, rfl⟩

namespace Tells

variable {given : List Progress}

theorem congr {g' : Graph} (h : c.Tells g kind given position)
    (size : g.nodes.size ≤ g'.nodes.size)
    (below : g'.nodesBelow kind position = g.nodesBelow kind position) :
    c.Tells g' kind given position :=
  ⟨h.source, h.sound, Nat.le_trans h.passed size, below ▸ h.rows, h.latest,
    h.ended, h.pulls⟩

/-- A failure leaves nothing to tell. -/
theorem failed (h : c.Tells g kind given position) :
    c.Tells g.afterRead kind given position :=
  h.congr (Nat.le_of_eq (congrArg Array.size g.nodes_afterRead).symm)
    (congrFun (congrFun (Graph.nodesBelow_congr g.nodes_afterRead) kind) position)

theorem again (h : c.Tells g kind given position) (ended : c.isExhausted = true) :
    c.Tells g kind (given ++ [.ended]) position where
  source := h.source
  sound := h.sound
  passed := h.passed
  rows := by rw [Progress.rows_append_ended, h.rows]
  latest := by simpa using readCached_of_isExhausted h.sound ended
  ended := by rw [Progress.hasEnd_append_ended, ended]
  pulls := by
    have hpulls := h.pulls
    rw [← h.ended, ended] at hpulls
    simpa using hpulls

/-- A node that was found is delivered behind the others. -/
theorem row (h : c.Tells g kind given position) (live : c.isExhausted = false) {node : Node}
    (found : g.findFrom? kind position = some node) :
    Tells
      { c with
        source := .graph kind (node.id + 1)
        latest := .row node.toRow
        pulls := c.pulls + 1 }
      g kind (given ++ [.row node.toRow]) (node.id + 1) where
  source := rfl
  sound := h.sound
  passed := (Graph.nodesBelow_of_findFrom? found).1
  rows := by
    rw [Progress.rows_append_row, h.rows, (Graph.nodesBelow_of_findFrom? found).2,
      List.map_append]
    rfl
  latest := by simp [readCached, h.sound]
  ended := by
    rw [Progress.hasEnd_append_row, ← h.ended, live]
    rfl
  pulls := by
    have hpulls := h.pulls
    rw [← h.ended, live] at hpulls
    simp [← h.ended, live, hpulls]

/-- A scan that finds no node has passed all of them. -/
theorem ending (h : c.Tells g kind given position) (live : c.isExhausted = false)
    (found : g.findFrom? kind position = none) :
    Tells
      { c with
        source := .graph kind g.nodes.size
        latest := .exhausted
        pulls := c.pulls + 1 }
      g kind (given ++ [.ended]) g.nodes.size where
  source := rfl
  sound := h.sound
  passed := Nat.le_refl _
  rows := by
    rw [Progress.rows_append_ended, h.rows,
      Graph.nodesBelow_of_findFrom?_eq_none found h.passed]
  latest := by simp [readCached, h.sound]
  ended := by
    rw [Progress.hasEnd_append_ended]
    rfl
  pulls := by
    have hpulls := h.pulls
    rw [← h.ended, live] at hpulls
    simp [hpulls]

/-- A pull never takes the scan back, and what it gives is told behind the rest. -/
theorem pull (h : c.Tells g kind given position) :
    ∃ position', position ≤ position' ∧
      (c.pull g).2.1.Tells (c.pull g).2.2 kind (given ++ (c.pull g).1.toOption.toList)
        position' := by
  have hcase := graphPull h.source h.sound g
  generalize c.pull g = pulled at hcase
  cases hcase with
  | again ended => exact ⟨position, Nat.le_refl _, h.again ended⟩
  | failed live obstacle =>
    exact ⟨position, Nat.le_refl _, (List.append_nil given).symm ▸ h.failed⟩
  | row live readable found =>
    obtain ⟨hle, -⟩ := Graph.findFrom?_eq_some found
    exact ⟨_, Nat.le_succ_of_le hle, h.row live found⟩
  | ended live readable found => exact ⟨_, h.passed, h.ending live found⟩

end Tells

end Cursor

/-! ## What happens to a table -/

/-- Something that happens to a graph or to one of its scans. -/
inductive ScanEvent where
  /-- a node comes in -/
  | create (labels : List String) (properties : Fields)
  | disturb (disturbance : Disturbance)
  /-- another scan is opened -/
  | openCursor (source : Source)
  /-- somebody who shares a scan pulls it -/
  | pull (id : CursorId)
  /-- somebody who shares a scan reads what its latest pull gave -/
  | readCached (id : CursorId)

namespace Scans

/-- The table after an event. -/
def after (s : Scans) : ScanEvent → Scans
  | .create labels properties => { s with graph := s.graph.create labels properties }
  | .disturb disturbance => s.disturb disturbance
  | .openCursor source => (s.openCursor source).2
  | .pull id => (s.read id false).2
  | .readCached id => (s.read id true).2

/-- The table after events, in their order. -/
def afterAll (s : Scans) (events : List ScanEvent) : Scans := events.foldl after s

/-- What a pull of a scan has given, if the event is one that succeeded. -/
def gives (id : CursorId) (s : Scans) : ScanEvent → List Progress
  | .pull other => if other = id then (s.read id false).1.toOption.toList else []
  | _ => []

/-- What the pulls of a scan have given during events, in their order. -/
def given (id : CursorId) (s : Scans) : List ScanEvent → List Progress
  | [] => []
  | event :: events => s.gives id event ++ given id (s.after event) events

variable {s : Scans} {id : CursorId} {kind : ScanKind} {told : List Progress}
  {position : Nat}

/-- Whatever happens, a scan of the graph goes on telling what its pulls have given. -/
theorem tells_after (hopen : s.IsOpen id)
    (h : (s.cursor id).Tells s.graph kind told position) (event : ScanEvent) :
    (s.after event).IsOpen id ∧ ∃ position', position ≤ position' ∧
      ((s.after event).cursor id).Tells (s.after event).graph kind
        (told ++ s.gives id event) position' := by
  have hnothing : told ++ [] = told := List.append_nil told
  cases event with
  | create labels properties =>
    refine ⟨hopen, position, Nat.le_refl _, hnothing.symm ▸ h.congr ?_ ?_⟩
    · exact Nat.le_of_lt (Array.size_push .. ▸ Nat.lt_succ_self _)
    · exact Graph.nodesBelow_create h.passed labels properties
  | disturb disturbance =>
    have hnodes := disturbance.nodes_apply s.graph
    refine ⟨hopen, position, Nat.le_refl _, hnothing.symm ▸ h.congr ?_ ?_⟩
    · exact Nat.le_of_eq (congrArg Array.size hnodes).symm
    · exact congrFun (congrFun (Graph.nodesBelow_congr hnodes) kind) position
  | openCursor source =>
    refine ⟨isOpen_openCursor hopen source, position, Nat.le_refl _, hnothing.symm ▸ ?_⟩
    show ((s.openCursor source).2.cursor id).Tells s.graph kind told position
    rw [cursor_openCursor hopen]
    exact h
  | pull other =>
    have hmoves := s.onlyMoves_pull other
    refine ⟨hmoves.isOpen hopen, ?_⟩
    by_cases hsame : other = id
    · subst hsame
      obtain ⟨position', hle, hpulled⟩ := h.pull
      refine ⟨position', hle, ?_⟩
      show ((s.pull other).2.cursor other).Tells _ kind
        (told ++ if other = other then _ else _) position'
      rw [cursor_pull_self hopen, if_pos rfl]
      exact hpulled
    · refine ⟨position, Nat.le_refl _, ?_⟩
      show ((s.pull other).2.cursor id).Tells _ kind
        (told ++ if other = id then _ else _) position
      rw [if_neg hsame, hnothing, hmoves.others id (Ne.symm hsame)]
      refine h.congr (Nat.le_of_eq (congrArg Array.size hmoves.nodes).symm) ?_
      exact congrFun (congrFun (Graph.nodesBelow_congr hmoves.nodes) kind) position
  | readCached other => exact ⟨hopen, position, Nat.le_refl _, hnothing.symm ▸ h⟩

theorem tells_afterAll (hopen : s.IsOpen id)
    (h : (s.cursor id).Tells s.graph kind told position) (events : List ScanEvent) :
    (s.afterAll events).IsOpen id ∧ ∃ position', position ≤ position' ∧
      ((s.afterAll events).cursor id).Tells (s.afterAll events).graph kind
        (told ++ s.given id events)
        position' := by
  induction events generalizing s told position with
  | nil => exact ⟨hopen, position, Nat.le_refl _, (List.append_nil told).symm ▸ h⟩
  | cons event events ih =>
    obtain ⟨hopen', position₁, hle, hfirst⟩ := tells_after hopen h event
    obtain ⟨hlast, position₂, hle', hrest⟩ := ih hopen' hfirst
    rw [List.append_assoc] at hrest
    exact ⟨hlast, position₂, Nat.le_trans hle hle', hrest⟩

theorem pull_of_isExhausted (hopen : s.IsOpen id) (sound : (s.cursor id).broken = false)
    (ended : (s.cursor id).isExhausted = true) : s.pull id = (.ok .ended, s) := by
  unfold pull
  rw [Cursor.pull_of_isExhausted sound ended]
  exact congrArg (Prod.mk _) (withCursor_cursor hopen)

/-- What a scan of the graph has delivered at a position, and what its next pull
or read will do, when its pulls have given what is told. -/
structure Delivers (id : CursorId) (kind : ScanKind) (told : List Progress)
    (position : Nat) (s : Scans) :
    Prop where
  source : (s.cursor id).source = .graph kind position
  passed : position ≤ s.graph.nodes.size
  /-- every node of the kind below the position was delivered, once and in order -/
  rows : Progress.rows told = (s.graph.nodesBelow kind position).map Node.toRow
  ordered : (s.graph.nodesBelow kind position).Pairwise fun a b => a.id < b.id
  below : ∀ node, node ∈ s.graph.nodesBelow kind position ↔
    node ∈ s.graph.nodes.toList ∧ node.isIn kind = true ∧ node.id < position
  /-- a pull counts when it delivers a row or finds the end -/
  pulls : (s.cursor id).pulls = (Progress.rows told).length +
    if Progress.hasEnd told then 1 else 0
  /-- a cached read gives what the latest successful pull gave -/
  cached : s.read id true = (.ok (told.getLast?.getD .pending), s)
  /-- a pull fails as long as the graph cannot be read, and changes
  nothing of the scan -/
  fails : (∃ i, (s.read id false).1 = .error i) ↔
    Progress.hasEnd told = false ∧ s.graph.obstacle?.isSome = true
  failed : ∀ i, (s.read id false).1 = .error i →
    (s.read id false).2.cursor id = s.cursor id
  /-- a first end is found only behind all nodes that there are -/
  ends : Progress.hasEnd told = false → (s.read id false).1 = .ok .ended →
    ((s.read id false).2.cursor id).source = .graph kind s.graph.nodes.size ∧
      Progress.rows told = (s.graph.nodesBelow kind s.graph.nodes.size).map Node.toRow
  /-- from then on pulls and reads give the end, without asking the source,
  whatever happens -/
  stays : Progress.hasEnd told = true → ∀ events, let later := s.afterAll events
    later.read id false = (.ok .ended, later) ∧
    later.read id true = (.ok .ended, later) ∧
      Asks (fun s => s.read id false) id later 0

/-- A scan that tells what its pulls have given delivers accordingly. -/
theorem delivers_of_tells (hopen : s.IsOpen id)
    (h : (s.cursor id).Tells s.graph kind told position) :
    s.Delivers id kind told position := by
  have hcase := Cursor.graphPull h.source h.sound s.graph
  have hresult : (s.read id false).1 = ((s.cursor id).pull s.graph).1 := rfl
  have hcursor : (s.read id false).2.cursor id = ((s.cursor id).pull s.graph).2.1 :=
    cursor_pull_self hopen
  refine ⟨h.source, h.passed, h.rows, s.graph.pairwise_nodesBelow kind position,
    fun node => Graph.mem_nodesBelow_iff, h.pulls, congrArg (·, s) h.latest, ?_, ?_, ?_, ?_⟩
  · rw [hresult, ← h.ended]
    generalize (s.cursor id).pull s.graph = pulled at hcase
    cases hcase with
    | again ended => simp [ended]
    | failed live obstacle => simp [live, obstacle]
    | row live readable found => simp [readable]
    | ended live readable found => simp [readable]
  · rw [hresult, hcursor]
    generalize (s.cursor id).pull s.graph = pulled at hcase
    cases hcase with
    | again ended => exact nofun
    | failed live obstacle => exact fun _ _ => rfl
    | row live readable found => exact nofun
    | ended live readable found => exact nofun
  · rw [hresult, hcursor, ← h.ended]
    generalize (s.cursor id).pull s.graph = pulled at hcase
    cases hcase with
    | again ended => simp [ended]
    | failed live obstacle => exact nofun
    | row live readable found => exact nofun
    | ended live readable found =>
      intro _ _
      exact ⟨rfl, by rw [Graph.nodesBelow_of_findFrom?_eq_none found h.passed, h.rows]⟩
  · intro hend events
    obtain ⟨hopen', position', -, hlater⟩ := tells_afterAll hopen h events
    have hended : ((s.afterAll events).cursor id).isExhausted = true := by
      rw [hlater.ended]
      unfold Progress.hasEnd at hend ⊢
      rw [List.any_append, hend, Bool.true_or]
    have hcalls : ((s.afterAll events).cursor id).calls = 0 := by
      unfold Cursor.calls
      rw [hended, Bool.or_true, if_pos rfl]
    exact ⟨pull_of_isExhausted hopen' hlater.sound hended,
      congrArg (·, s.afterAll events)
        (Cursor.readCached_of_isExhausted hlater.sound hended),
      hcalls ▸ asks_pull hopen'⟩

/-- Whatever happens to the graph and to its scans, in whatever order: a scan of
the graph has delivered every node of its kind below its position, and goes on
where it stands until it has found the end. -/
theorem delivers_each_once (s₀ : Scans) (kind : ScanKind) (events : List ScanEvent) :
    let id := (s₀.openCursor (.graph kind 0)).1
    let opened := (s₀.openCursor (.graph kind 0)).2
    ∃ position,
      (opened.afterAll events).Delivers id kind (opened.given id events) position := by
  intro id opened
  have hopen : opened.IsOpen id := s₀.isOpen_openCursor_self _
  have hnew : (opened.cursor id).Tells opened.graph kind [] 0 := by
    rw [show opened.cursor id = { source := .graph kind 0 } from
      s₀.cursor_openCursor_self _]
    exact Cursor.tells_new _ kind
  obtain ⟨hopen', position, -, htells⟩ := tells_afterAll hopen hnew events
  exact ⟨position, delivers_of_tells hopen' htells⟩

end Scans

end Lockstep
