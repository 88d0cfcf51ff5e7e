import Lockstep.Proofs.Pipeline.Lone
import Lockstep.Proofs.Query.Grammar
import Lockstep.Proofs.Query.Meaning
import Lockstep.Proofs.Value.Fields
set_option autoImplicit false

/-!
# The answer to a query

What a query answers is told node by node: which nodes it chooses, what the row
of a node shows, and what an object shows of a row.  Its plan, opened over a
readable graph and stepped again and again, reaches its end and has collected
just these answers.

That no node is read in vain needs more than what comes out in the end.
Wherever the scan stands, the limit still has room for as many rows as the nodes
behind it have not used up: every selected node that was read has taken one row
of the limit, and a scan is read on only while the limit has a row left.
-/

namespace Lockstep

/-! ## Rows and answers -/

/-- What a key shows of a node: its labels and its number, and under any other
key its property. -/
def Node.shown (node : Node) (key : String) : Option Value :=
  if key = labelsKey then some (.array (node.labels.map .string))
  else if key = idKey then some (.nat node.id)
  else Fields.get? node.properties key

/-- The row of a node is an object that shows the node. -/
def Node.IsRow (node : Node) (row : Value) : Prop :=
  ∃ fields : Fields,
    row = .object fields ∧ (Fields.Ordered node.properties → fields.Ordered) ∧
    ∀ key, Fields.get? fields key = node.shown key

theorem Node.isRow_toRow (node : Node) : node.IsRow node.toRow := by
  refine ⟨_, rfl, fun h => (h.insert _ _).insert _ _, ?_⟩
  intro key
  rw [Fields.get?_insert, Fields.get?_insert]
  rfl

/-- Columns of one node are the same if they have the same name. -/
theorem Item.IsOf.eq_of_column {binding : String} {a b : Item} (ha : a.IsOf binding)
    (hb : b.IsOf binding) (h : a.column = b.column) : a = b := by
  have hlonger : ∀ name : String, binding ≠ binding ++ "." ++ name := by
    intro name heq
    have hlength := congrArg String.length heq
    rw [String.length_append, String.length_append] at hlength
    have hdot : ".".length = 1 := rfl
    omega
  cases a with
  | node name =>
    cases ha
    cases b with
    | node other =>
      cases hb
      rfl
    | property other name =>
      cases hb
      exact absurd h (hlonger name)
  | property name property =>
    cases ha
    cases b with
    | node other =>
      cases hb
      exact absurd h.symm (hlonger property)
    | property other name =>
      cases hb
      rw [(String.append_right_inj _).mp h]

namespace MatchQuery

/-- An answer shows a row: it is an object, a column of the whole node holds the
row, a column of a property holds what the row has there or null, and there is
no other column. -/
structure Shows (q : MatchQuery) (row answer : Value) : Prop where
  object : ∃ fields : Fields, answer = .object fields ∧ fields.Ordered
  whole : ∀ binding, .node binding ∈ q.returns → answer.get? binding = some row
  property : ∀ binding name, .property binding name ∈ q.returns →
    answer.get? (binding ++ "." ++ name) = some ((row.get? name).getD .null)
  only : ∀ column value, answer.get? column = some value → ∃ item ∈ q.returns,
    item.column = column

/-- A shaped row shows the row under every column, whatever columns are repeated. -/
theorem shows_shape {q : MatchQuery} (bound : ∀ item ∈ q.returns, item.IsOf q.binding)
    (row : Value) :
    q.Shows row (Item.shape q.returns row) := by
  have hget : ∀ column, (Item.shape q.returns row).get? column =
      Fields.get? (q.returns.map fun item => (item.column, item.valueIn row)).reverse column :=
    fun column => Fields.get?_ofList _ column
  have hmem : ∀ {column value},
      Fields.get? (q.returns.map fun item => (item.column, item.valueIn row)).reverse
        column = some value →
      ∃ item ∈ q.returns, item.column = column ∧ item.valueIn row = value := by
    intro column value h
    obtain ⟨item, hitem, heq⟩ :=
      List.mem_map.mp (List.mem_reverse.mp (Fields.mem_of_get? h))
    exact ⟨item, hitem, Prod.mk.inj heq⟩
  have hcolumn : ∀ item ∈ q.returns,
      (Item.shape q.returns row).get? item.column = some (item.valueIn row) := by
    intro item hitem
    have hbound := Fields.isSome_get?_of_mem
      (List.mem_reverse.mpr
        (List.mem_map_of_mem (f := fun item => (item.column, item.valueIn row)) hitem))
    obtain ⟨value, hvalue⟩ := Option.isSome_iff_exists.mp hbound
    -- the column may be given several times, but only by this item
    obtain ⟨other, hother, hname, hshown⟩ := hmem hvalue
    rw [(bound other hother).eq_of_column (bound item hitem) hname] at hshown
    rw [hget, hvalue, hshown]
  refine ⟨⟨_, rfl, Fields.ordered_ofList _⟩, fun binding h => hcolumn _ h,
    fun binding name h => hcolumn _ h, ?_⟩
  intro column value h
  rw [hget] at h
  obtain ⟨item, hitem, hname, -⟩ := hmem h
  exact ⟨item, hitem, hname⟩

/-! ## The nodes that a query chooses -/

/-- Whether a node carries the label of the query, if it has one, and satisfies
every predicate. -/
def Selects (q : MatchQuery) (node : Node) : Prop :=
  (∀ label ∈ q.label, label ∈ node.labels) ∧ ∀ p ∈ q.predicates,
    p.holds node.toRow = true

theorem selects_iff (q : MatchQuery) (node : Node) :
    q.Selects node ↔ q.fits node = true ∧ Predicate.allHold q.predicates node.toRow = true := by
  unfold Selects fits Predicate.allHold Node.hasLabel
  rw [List.all_eq_true, Option.all_eq_true]
  simp only [List.contains_iff_mem, Option.mem_def]

instance (q : MatchQuery) : DecidablePred q.Selects :=
  fun node => decidable_of_iff _ (q.selects_iff node).symm

/-- How many rows the query may answer, if it says so. -/
def quota (q : MatchQuery) : Option Nat :=
  match q.limit with
  | some (.number (.int n)) => some n.toNat
  | _ => none

/-- The nodes whose rows the query answers: the selected ones, as many as the
limit lets through. -/
def chosen (q : MatchQuery) (nodes : List Node) : List Node :=
  match q.quota with
  | some n => (nodes.filter q.Selects).take n
  | none => nodes.filter q.Selects

theorem cut_eq (q : MatchQuery) (rows : List Value) :
    q.cut rows = match q.quota with
      | some n => rows.take n
      | none => rows := by
  unfold cut quota
  rcases q.limit with _ | (_ | _ | (_ | _) | _ | _ | _) <;> rfl

/-- What the query means is what its returned columns make of the nodes it chooses. -/
theorem meaning_eq (q : MatchQuery) (nodes : List Node) :
    q.meaning nodes = (q.chosen nodes).map fun node =>
      Item.shape q.returns node.toRow := by
  have hkept : ((nodes.filter q.fits).map Node.toRow).filter
    (fun row => q.predicates.all fun p => p.holds row) =
      (nodes.filter q.Selects).map Node.toRow := by
    rw [List.filter_map, List.filter_filter]
    refine congrArg (List.map Node.toRow) (List.filter_congr fun node _ => ?_)
    rw [Bool.eq_iff_iff, Bool.and_eq_true, decide_eq_true_iff, selects_iff, and_comm]
    rfl
  unfold meaning
  dsimp only
  rw [hkept, List.map_map, cut_eq]
  unfold chosen
  cases q.quota with
  | none => rfl
  | some n => exact (List.map_take).symm

/-! ## What a scan has read -/

/-- The links of the plan when so many rows have come out of them. -/
def linksAfter (q : MatchQuery) (count : Nat) : List Link :=
  q.filterLinks ++ .project q.returns ::
    (q.quota.map fun n => .limit n (n - count)).toList

/-- A limit that is accepted is a natural number, and the plan starts
with all of it left. -/
theorem quota_of_ok {q : MatchQuery} {plan : Plan} (h : q.plan = .ok plan) :
    (∀ literal ∈ q.limit, ∃ n : Nat, literal = .nat n ∧ q.quota = some n) ∧
      plan = ⟨q.scanKind, .graph q.scanKind 0, q.linksAfter 0⟩ := by
  unfold MatchQuery.plan limitLinks at h
  unfold linksAfter quota
  cases hlimit : q.limit with
  | none =>
    rw [hlimit] at h
    cases h
    exact ⟨fun literal hmem => (by cases hmem), by simp⟩
  | some literal =>
    rw [hlimit] at h
    dsimp only at h
    cases hlink : Link.ofLiteral literal with
    | error e =>
      rw [hlink] at h
      cases h
    | ok link =>
      rw [hlink] at h
      cases h
      obtain ⟨n, rfl, rfl⟩ := Link.ofLiteral_eq_ok hlink
      refine ⟨?_, by simp [Value.nat, Link.ofQuota]⟩
      intro literal hmem
      cases hmem
      exact ⟨n, rfl, rfl⟩

/-- A row comes out of the links if it satisfies every predicate, and then the
limit has one less left. -/
theorem pass_linksAfter (q : MatchQuery) (count : Nat) (c : Counters) (row : Value) :
    (Link.pass c row (q.linksAfter count)).2 =
      q.linksAfter (count + if Predicate.allHold q.predicates row then 1 else 0) := by
  have hquota : ∀ row',
    (Link.pass c row' (q.quota.map fun n => .limit n (n - count)).toList).2 =
      (q.quota.map fun n => .limit n (n - (count + 1))).toList := by
    intro row'
    cases q.quota <;> rfl
  unfold linksAfter filterLinks
  split
  · rename_i hnone
    have hholds : Predicate.allHold q.predicates row = true := by
      rw [List.isEmpty_iff.mp hnone]
      rfl
    rw [if_pos hholds, ← hquota (Item.shape q.returns row)]
    rfl
  · split
    · rename_i hholds
      rw [← hquota (Item.shape q.returns row)]
      simp only [List.singleton_append, Link.pass, Link.apply, hholds, if_true]
    · rename_i hfails
      simp only [List.singleton_append, Link.pass, Link.apply, hfails, if_false,
        Bool.false_eq_true, Nat.add_zero]

theorem lt_of_linksAfter {q : MatchQuery} {count n : Nat}
    (live : (q.linksAfter count).any Link.isSpent = false) (h : n ∈ q.quota) :
    count < n := by
  unfold linksAfter at live
  rw [Option.mem_def.mp h] at live
  simp only [List.any_append, List.any_cons, Option.map_some, Option.toList_some,
    Bool.or_eq_false_iff] at live
  obtain ⟨-, -, hlimit, -⟩ := live
  refine Nat.lt_of_not_le fun hle => ?_
  rw [Nat.sub_eq_zero_of_le hle] at hlimit
  cases hlimit

end MatchQuery

theorem Pipeline.links_receive (p : Pipeline) (row : Value) :
    (p.receive row).2.links =
      (Link.pass { p.counters with scanned := p.counters.scanned + 1 } row p.links).2 := by
  unfold receive
  dsimp only
  split <;> rfl

/-! ## How a scan goes over the nodes -/

/-- A pull of a sound cursor over a readable graph finds it exhausted, takes the
row of the next node or finds the end. -/
theorem Cursor.pull_graph {c : Cursor} {g : Graph} {kind : ScanKind} {position : Nat}
    (sound : c.broken = false) (source : c.source = .graph kind position)
    (quiet : g.IsQuiet) :
    c.pull g = (.ok .ended, c, g) ∨
      (∃ node, g.findFrom? kind position = some node ∧
        (c.pull g).1 = .ok (.row node.toRow) ∧
          (c.pull g).2.1.source = .graph kind (node.id + 1)) ∨
      g.findFrom? kind position = none ∧
        (c.pull g).1 = .ok .ended ∧
        (c.pull g).2.1.source = .graph kind g.nodes.size := by
  unfold pull
  rw [if_neg (by simp [sound])]
  split
  · exact .inl rfl
  · rw [source, Source.next]
    simp only [quiet.obstacle?]
    cases hfound : g.findFrom? kind position with
    | some node => exact .inr (.inl ⟨node, rfl, rfl, rfl⟩)
    | none => exact .inr (.inr ⟨rfl, rfl, rfl⟩)

namespace MatchQuery

/-- How many of the first nodes the query selects. -/
def selectedIn (q : MatchQuery) (nodes : List Node) (count : Nat) : Nat :=
  (nodes.take count).countP fun node => q.Selects node

/-- Nodes that a scan passes over are not selected. -/
theorem selectedIn_of_passed {q : MatchQuery} {nodes : List Node} {first last : Nat}
    (hle : first ≤ last)
    (h : ∀ i, first ≤ i → i < last → ∀ node ∈ nodes[i]?, node.isIn q.scanKind = false) :
    q.selectedIn nodes last = q.selectedIn nodes first := by
  obtain ⟨more, rfl⟩ := Nat.exists_eq_add_of_le hle
  induction more with
  | zero => rfl
  | succ more ih =>
    rw [← ih (Nat.le_add_right _ _) fun i hi hlt => h i hi (Nat.lt_succ_of_lt hlt)]
    unfold selectedIn
    rw [← Nat.add_assoc, List.take_add_one, List.countP_append]
    have hpassed := h (first + more) (Nat.le_add_right _ _) (Nat.lt_succ_self _)
    cases hnode : nodes[first + more]? with
    | none => rfl
    | some node =>
      have hnot : ¬ q.Selects node := by
        rw [selects_iff, ← isIn_scanKind, hpassed node hnode]
        simp
      simp [hnot]

/-- A node of the kind is selected if its row satisfies every predicate. -/
theorem selectedIn_succ {q : MatchQuery} {nodes : List Node} {i : Nat} {node : Node}
    (h : nodes[i]? = some node) (hin : node.isIn q.scanKind = true) :
    q.selectedIn nodes (i + 1) =
      q.selectedIn nodes i + if Predicate.allHold q.predicates node.toRow then 1 else 0 := by
  have hiff : q.Selects node ↔ Predicate.allHold q.predicates node.toRow = true := by
    rw [selects_iff, ← isIn_scanKind, hin]
    simp
  unfold selectedIn
  rw [List.take_add_one, h, List.countP_append]
  simp [List.countP_cons, hiff]

/-- The scan of a pipeline stands at a position.  The links of the pipeline have
taken the selected nodes before it, and before each node that was read there was
room for one more. -/
structure HasRead (q : MatchQuery) (nodes : List Node) (position : Nat) (p : Pipeline)
    (s : Scans) : Prop where
  graph : s.graph.nodes.toList = nodes
  within : position ≤ nodes.length
  source : (s.cursor p.cursor).source = .graph q.scanKind position
  links : p.links = q.linksAfter (q.selectedIn nodes position)
  needed : ∀ i < position, ∀ n ∈ q.quota, q.selectedIn nodes i < n

theorem HasRead.start {q : MatchQuery} {plan : Plan} (h : q.plan = .ok plan) (s : Scans) :
    q.HasRead s.graph.nodes.toList 0 (plan.openScan s).1 (plan.openScan s).2 := by
  obtain ⟨-, rfl⟩ := quota_of_ok h
  refine ⟨rfl, Nat.zero_le _, ?_, rfl, fun i hi => absurd hi (Nat.not_lt_zero i)⟩
  exact congrArg Cursor.source (s.cursor_openCursor_self _)

/-- A step of a pipeline over a readable graph keeps account of what was read. -/
theorem HasRead.step {q : MatchQuery} {nodes : List Node} {position : Nat}
    {p : Pipeline} {s : Scans} (h : q.HasRead nodes position p s)
    (fresh : p.cached = false) (sound : Link.IsSound p.links)
    (quiet : s.IsQuiet p.cursor) :
    ∃ position', q.HasRead nodes position' (p.step s).2.1 (p.step s).2.2 := by
  cases hover : p.isOver with
  | true =>
    rw [Pipeline.step_of_isOver hover]
    refine ⟨position, ?_⟩
    unfold Pipeline.stop
    split
    · exact h
    · exact ⟨h.graph, h.within, h.source, h.links, h.needed⟩
  | false =>
    have hasks := Pipeline.asks_of_isSound sound hover
    have hlive : (q.linksAfter (q.selectedIn nodes position)).any Link.isSpent = false :=
      h.links ▸ Link.unspent_of_ask hasks
    have hgraph : s.graph.IsQuiet := by
      have hsource := quiet.cursor.source
      rwa [h.source] at hsource
    have hread : s.read p.cursor p.cached = s.pull p.cursor := by
      rw [fresh]
      rfl
    rw [Pipeline.step_of_not_isOver hover, Pipeline.scansAfter_of_asks hasks,
      Pipeline.take_of_asks hasks, hread]
    have hnodes : (s.pull p.cursor).2.graph.nodes.toList = nodes := by
      rw [(s.onlyMoves_pull p.cursor).nodes, h.graph]
    have houtcome : (s.pull p.cursor).1 = ((s.cursor p.cursor).pull s.graph).1 := rfl
    have hsource := congrArg Cursor.source (Scans.cursor_pull_self quiet.isOpen)
    -- up to a node with no selected one before it since, every node that is
    -- read is needed
    have hneeded : ∀ last, (∀ i, position ≤ i → i ≤ last →
        q.selectedIn nodes i = q.selectedIn nodes position) →
        ∀ i ≤ last, ∀ n ∈ q.quota, q.selectedIn nodes i < n := by
      intro last hsame i hi n hn
      rcases Nat.lt_or_ge i position with hlt | hge
      · exact h.needed i hlt n hn
      · rw [hsame i hge hi]
        exact lt_of_linksAfter hlive hn
    rcases Cursor.pull_graph quiet.cursor.sound h.source hgraph with
      hended | ⟨node, hfound, hrow, hbehind⟩ | ⟨hnone, hended, hbehind⟩
    · rw [houtcome, hended, ← Pipeline.take_of_asks hasks,
        Pipeline.take_ended sound hover]
      rw [hended] at hsource
      exact ⟨position, hnodes, h.within, hsource.trans h.source, h.links, h.needed⟩
    · obtain ⟨hle, hnode, hin, hpassed⟩ := Graph.findFrom?_eq_some hfound
      rw [h.graph] at hnode hpassed
      have hsame : ∀ i, position ≤ i → i ≤ node.id →
          q.selectedIn nodes i = q.selectedIn nodes position := by
        intro i hi hnext
        exact selectedIn_of_passed hi fun j hj hlt =>
          hpassed j hj (Nat.lt_of_lt_of_le hlt hnext)
      rw [houtcome, hrow]
      refine ⟨node.id + 1, hnodes, (List.getElem?_eq_some_iff.mp hnode).1, ?_, ?_, ?_⟩
      · have hcursor := (p.countStep.sameScan_receive node.toRow).cursor
        exact (congrArg (fun id => ((s.pull p.cursor).2.cursor id).source)
          hcursor).trans (hsource.trans hbehind)
      · rw [selectedIn_succ hnode hin, hsame node.id hle (Nat.le_refl _),
          ← pass_linksAfter, ← h.links]
        exact p.countStep.links_receive node.toRow
      · exact fun i hi => hneeded node.id hsame i (Nat.le_of_lt_succ hi)
    · have hpassed := Graph.findFrom?_eq_none hnone
      rw [h.graph] at hpassed
      have hsame : ∀ i, position ≤ i →
          q.selectedIn nodes i = q.selectedIn nodes position := by
        intro i hi
        exact selectedIn_of_passed hi fun j hj _ => hpassed j hj
      have hsize : s.graph.nodes.size = nodes.length := congrArg List.length h.graph
      rw [hsize] at hbehind
      rw [houtcome, hended, ← Pipeline.take_of_asks hasks,
        Pipeline.take_ended sound hover]
      refine ⟨nodes.length, hnodes, Nat.le_refl _, hsource.trans hbehind, ?_, ?_⟩
      · rw [hsame _ h.within]
        exact h.links
      · exact fun i hi => hneeded i (fun j hj _ => hsame j hj) i (Nat.le_refl _)

theorem HasRead.steps {q : MatchQuery} {nodes : List Node} (count : Nat)
    {position : Nat} {p : Pipeline} {s : Scans} (h : q.HasRead nodes position p s)
    (fresh : p.cached = false) (sound : Link.IsSound p.links)
    (quiet : s.IsQuiet p.cursor) :
    ∃ position', q.HasRead nodes position' (p.steps count s).1 (p.steps count s).2 := by
  induction count generalizing position p s with
  | zero => exact ⟨position, h⟩
  | succ count ih =>
    obtain ⟨position', hnext⟩ := h.step fresh sound quiet
    have hstep := Pipeline.quietStep_step fresh sound quiet
    exact ih hnext hstep.fresh hstep.sound (hstep.cursor ▸ hstep.quiet)

/-! ## The answers -/

/-- A plan that is opened over a readable graph is at its start. -/
theorem begins_openScan {q : MatchQuery} {plan : Plan} (h : q.plan = .ok plan)
    {s : Scans} (quiet : s.graph.IsQuiet) :
    (plan.openScan s).1.Begins (plan.openScan s).2 where
  fresh := rfl
  sound := (plan_of_ok h).2.1
  unfinished := rfl
  uncounted := rfl
  quiet := by
    refine ⟨s.isOpen_openCursor_self _, ?_⟩
    show Cursor.IsQuiet s.graph ((s.openCursor plan.source).2.cursor s.cursors.size)
    rw [s.cursor_openCursor_self, (plan_of_ok h).1]
    exact ⟨rfl, quiet⟩
  unpulled := congrArg Cursor.pulls (s.cursor_openCursor_self _)
  unexhausted := congrArg Cursor.isExhausted (s.cursor_openCursor_self _)

theorem upcoming_openScan {q : MatchQuery} {plan : Plan} (h : q.plan = .ok plan) (s : Scans) :
    (plan.openScan s).2.upcoming (plan.openScan s).1.cursor =
      s.graph.rowsFrom plan.kind 0 := by
  show ((s.openCursor plan.source).2.cursor s.cursors.size).upcoming s.graph = _
  rw [s.cursor_openCursor_self, (plan_of_ok h).1]
  rfl

/-- When a plan has come to its end it has collected what its query means. -/
theorem rows_run {q : MatchQuery} {plan : Plan} (h : q.plan = .ok plan) {s : Scans}
    (quiet : s.graph.IsQuiet) :
    ((plan.openScan s).1.run (plan.openScan s).2).1.rows.toList =
      q.meaning s.graph.nodes.toList := by
  have hbegins := begins_openScan h quiet
  have hrun := Pipeline.steps_of_isQuiet _ hbegins.fresh hbegins.sound hbegins.quiet
    (Nat.le_refl _)
  refine hrun.2.trans ?_
  rw [upcoming_openScan h, ← (plan_of_ok h).2.2 s.graph]
  rfl

theorem chosen_sublist (q : MatchQuery) (nodes : List Node) :
    (q.chosen nodes).Sublist nodes := by
  unfold chosen
  split
  · exact (List.take_sublist _ _).trans List.filter_sublist
  · exact List.filter_sublist

end MatchQuery

/-- The plan of a query that returns columns of its own node, opened over a readable
graph, comes to its end after at most one step more than there are nodes, and no
step before fails.  It has then collected, in the order of their numbers, one answer
for each node that the query chooses; the answer shows the row of the node, and the
row shows the node.  A limit is a natural number, and wherever the scan stands,
fewer nodes than that were selected before each node that was read. -/
theorem MatchQuery.answers_chosen {q : MatchQuery} {plan : Plan} {s : Scans}
    (accepted : q.plan = .ok plan) (bound : ∀ item ∈ q.returns, item.IsOf q.binding)
    (quiet : s.graph.IsQuiet) :
    let nodes := s.graph.nodes.toList
    let after := fun count => (plan.openScan s).1.steps count (plan.openScan s).2
    (∃ last, last ≤ nodes.length ∧
      (∀ count, ∃ result, ((after count).1.step (after count).2).1 = .ok result ∧
        (result = .finished ↔ last ≤ count)) ∧
      ∀ count, last < count →
        (after count).1.finished = true ∧
        List.Forall₂
          (fun node answer => node.IsRow node.toRow ∧ q.Shows node.toRow answer)
          (q.chosen nodes) (after count).1.rows.toList) ∧
    (q.chosen nodes).Pairwise (fun a b => a.id < b.id) ∧
    (∀ literal ∈ q.limit, ∃ n : Nat, literal = .nat n ∧ q.quota = some n) ∧
    ∀ count, ∃ position, ((after count).2.cursor (after count).1.cursor).source =
      .graph q.scanKind position ∧
      ∀ i < position, ∀ n ∈ q.quota, q.selectedIn nodes i < n := by
  intro nodes after
  have hbegins := begins_openScan accepted quiet
  refine ⟨?_, s.graph.pairwise_nodes.sublist (q.chosen_sublist nodes),
    (quota_of_ok accepted).1, ?_⟩
  · have hpos := hbegins.stepCost_pos
    have hcost := hbegins.stepCost_le
    have hrows : ((plan.openScan s).2.upcoming (plan.openScan s).1.cursor).length ≤
        nodes.length := by
      rw [upcoming_openScan accepted]
      unfold Graph.rowsFrom
      rw [List.length_map, List.drop_zero]
      exact List.length_filter_le _ _
    refine ⟨(plan.openScan s).1.stepCost (plan.openScan s).2 - 1, by omega, ?_, ?_⟩
    · intro count
      obtain ⟨result, hresult, hfinished⟩ := hbegins.result_step count
      exact ⟨result, hresult, hfinished.trans (by omega)⟩
    · intro count hlt
      refine ⟨hbegins.finished_steps_iff.mpr (by omega), ?_⟩
      have hrun : after count = (plan.openScan s).1.run (plan.openScan s).2 :=
        hbegins.steps_of_le (by omega)
      rw [hrun, rows_run accepted quiet, meaning_eq, List.forall₂_map_right_iff,
        List.forall₂_same]
      exact fun node _ => ⟨node.isRow_toRow, shows_shape bound _⟩
  · intro count
    obtain ⟨position, hread⟩ :=
      (HasRead.start accepted s).steps count hbegins.fresh hbegins.sound hbegins.quiet
    exact ⟨position, hread.source, hread.needed⟩

/-- A query with a predicate, a column given twice, one that no node
has, and a limit. -/
def MatchQuery.adults : MatchQuery where
  binding := "n"
  label := some "Person"
  predicates := [⟨"age", .ge, .int 18⟩]
  returns :=
    [.node "n", .property "n" "name", .property "n" "nick", .property "n" "name"]
  limit := some (.nat 2)

/-- A graph with a node whose property is overlaid, two that are not selected
and one beyond the limit. -/
def Graph.town : Graph := .ofNodes [
  (["Person"], [("_node_id", .string "p1"), ("age", .int 30), ("name", .string "Ann")]),
  (["City"], [("age", .int 900)]),
  (["Person"], [("age", .null), ("name", .string "Bob")]),
  (["Person", "Admin"], [("age", .int 18)]),
  (["Person"], [("age", .int 50)])]

/-- The query answers the first and the fourth node, and never reads the fifth. -/
theorem MatchQuery.answers_chosen_adults :
    ∃ plan, adults.plan = .ok plan ∧
      (∀ item ∈ adults.returns, item.IsOf adults.binding) ∧
      Graph.town.IsQuiet ∧
      (adults.chosen Graph.town.nodes.toList).map Node.id = [0, 3] ∧
      let after := fun count =>
        (plan.openScan ⟨.town, #[]⟩).1.steps count (plan.openScan ⟨.town, #[]⟩).2
      List.Forall₂
        (fun node answer => node.IsRow node.toRow ∧ adults.Shows node.toRow answer)
        (adults.chosen Graph.town.nodes.toList) (after 6).1.rows.toList ∧
      ∀ count, ∃ position ≤ 4,
        ((after count).2.cursor (after count).1.cursor).source =
          .graph (.label "Person") position := by
  have haccepted : adults.plan =
    .ok ⟨.label "Person", .graph (.label "Person") 0, adults.linksAfter 0⟩ := rfl
  have hbound : ∀ item ∈ adults.returns, item.IsOf adults.binding := by
    simp [adults, Item.IsOf]
  have hquiet : Graph.town.IsQuiet := ⟨rfl, rfl⟩
  obtain ⟨⟨last, hlast, -, hrows⟩, -, -, hreads⟩ :=
    answers_chosen (s := ⟨.town, #[]⟩) haccepted hbound hquiet
  refine ⟨_, haccepted, hbound, hquiet, by decide +kernel,
    (hrows 6 (Nat.lt_succ_of_le hlast)).2, ?_⟩
  intro count
  obtain ⟨position, hsource, hneeded⟩ := hreads count
  refine ⟨position, Nat.le_of_not_lt fun hlt => ?_, hsource⟩
  have hfull : adults.selectedIn Graph.town.nodes.toList 4 = 2 := by decide +kernel
  exact absurd (hneeded 4 hlt 2 rfl) (Nat.not_lt_of_le (Nat.le_of_eq hfull.symm))

end Lockstep
