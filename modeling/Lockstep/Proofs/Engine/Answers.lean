import Lockstep.Proofs.Engine.Faithful
import Lockstep.Proofs.Query.Meaning
set_option autoImplicit false

/-!
# Queries are answered by what they mean

Each accepted text has one number, and the outcome under this number has the
rows that the text means over the nodes of the graph, or the first of them if it
failed.  Neither the order of the calls nor what happens to the transaction
makes a difference.
-/

namespace Lockstep

/-- The text that a call and its answer have accepted. -/
def Call.text? : Call → Answer → Option String
  | .execute _ query, .executed (.ok _) => some query
  | _, _ => none

theorem Call.text?_eq_none {answer : Answer} (h : answer.accepted? = none)
    (call : Call) :
    call.text? answer = none := by
  unfold text?
  split
  · cases h
  · rfl

theorem Answer.of_isLoss {answer : Answer} (h : answer.isLoss = true) :
    answer.accepted? = none ∧ answer.outcomes = [] := by
  unfold isLoss at h
  split at h
  · exact ⟨rfl, rfl⟩
  · cases h

/-- Whether the call asks nothing of the planner but to plan a text over the graph. -/
def Call.IsOverGraph : Call → Prop
  | .execute planner _ => planner = Plan.ofText
  | _ => True

/-- The operation of a number has to end with what the text of this number
means over the nodes. -/
def Expectation.ofTexts (texts : List String) (nodes : Array Node) : Expectation :=
  fun sequence query rows =>
    texts[sequence]? = some query ∧
      ∃ q, Query.parse query = .ok q ∧ rows = q.meaning nodes.toList

namespace Engine

/-- The texts that calls make an engine accept, in their order. -/
def texts (e : Engine) : List Call → List String
  | [] => []
  | call :: calls =>
    (call.text? (e.answer call).1).toList ++ texts (e.answer call).2 calls

namespace Faithful

variable {ex : Expectation} {nodes : Array Node} {e e' : Engine}

theorem create {config : Config} {names : Names} {graph : Graph}
    (h : Engine.create config names graph = .ok e) (ex : Expectation) :
    e.Faithful ex graph.nodes ∧ e.queue.nextSequence = 0 := by
  obtain ⟨-, rfl⟩ := create_eq_ok_iff.mp h
  exact ⟨⟨rfl, Registry.sound_ofCapacity _, List.forall_mem_nil _, .nil,
    List.forall_mem_nil _, List.forall_mem_nil _⟩, rfl⟩

/-- An accepted query waits on course at the start of its scan. -/
theorem accepted (h : e.Faithful ex nodes) {query : String} {plan : Plan}
    (source : plan.source = .graph plan.kind 0) (sound : Link.IsSound plan.links)
    (expected : ex e.queue.nextSequence query
      (Link.yield plan.links (e.scans.graph.rowsFrom plan.kind 0))) :
    Faithful ex nodes { e with
      queue := (e.queue.enqueue query (plan.openScan e.scans).1).2
      scans := (plan.openScan e.scans).2 } := by
  let op : Operation := ⟨e.queue.nextSequence, query, (plan.openScan e.scans).1⟩
  let s := (plan.openScan e.scans).2
  have hunstarted : op.Unstarted s := Operation.unstarted_openScan plan e.scans _ query
  have hsource : (s.cursor op.pipeline.cursor).source = .graph op.pipeline.kind 0 :=
    (congrArg Cursor.source (e.scans.cursor_openCursor_self plan.source)).trans source
  have hwaits : op.Waits s := ⟨sound, fun _ => ⟨hunstarted, hsource⟩⟩
  have hcourse : op.OnCourse ex (s.upcoming op.pipeline.cursor) := by
    unfold Operation.OnCourse
    rw [hwaits.upcoming rfl]
    exact expected
  have hfeeds :=
    feeds_accepted h.feeds query plan (List.forall_mem_singleton.mpr ⟨rfl, hcourse⟩)
  refine ⟨h.nodes, h.sound, ?_, hfeeds, h.delivered, h.outcomes⟩
  refine List.forall_mem_append.mpr ⟨?_, List.forall_mem_singleton.mpr hwaits⟩
  intro old hold
  have hopen := (h.onCourse hold).1
  exact (h.waits old hold).congr (Scans.isOpen_openCursor hopen plan.source)
    (Scans.cursor_openCursor hopen plan.source)

theorem disturb (h : e.Faithful ex nodes) (d : Disturbance) :
    Faithful ex nodes { e with scans := e.scans.disturb d } where
  nodes := (d.nodes_apply e.scans.graph).trans h.nodes
  sound := h.sound
  waits := fun op hop => (h.waits op hop).congr (h.onCourse hop).1 rfl
  feeds := h.feeds.disturb d
  delivered := h.delivered
  outcomes := h.outcomes

/-- Every call over the graph keeps an engine faithful, if what it accepts is
expected to end with what its plan makes of the graph. -/
theorem answer (h : e.Faithful ex nodes) (call : Call) (planned : call.IsOverGraph)
    (expected : ∀ query ∈ call.text? (e.answer call).1, ∀ plan,
      Plan.ofText query = .ok plan →
      ex e.queue.nextSequence query
        (Link.yield plan.links (e.scans.graph.rowsFrom plan.kind 0))) :
    (e.answer call).2.Faithful ex nodes ∧
      (∀ o ∈ (e.answer call).1.outcomes, o.Truthful ex) ∧
      (e.answer call).2.queue.nextSequence =
        e.queue.nextSequence + (call.text? (e.answer call).1).toList.length := by
  have hcase := e.callCase call
  generalize (e.answer call).1 = answer at hcase expected ⊢
  generalize (e.answer call).2 = e' at hcase ⊢
  cases hcase with
  | @accepted planner query plan _ hplan rest =>
    have hplanner : planner = Plan.ofText := planned
    rw [hplanner] at hplan
    obtain ⟨q, -, hq⟩ := Plan.ofText_eq_ok hplan
    obtain ⟨hsource, hsound, -⟩ := MatchQuery.plan_of_ok hq
    refine ⟨(h.accepted hsource hsound ?_).receives rest (List.forall_mem_nil _),
      List.forall_mem_nil _, congrArg Queue.nextSequence rest.queue⟩
    exact expected query rfl plan hplan
  | moved moves none stored =>
    refine ⟨h.moves moves, fun o ho => h.outcomes o (stored o ho), ?_⟩
    rw [Call.text?_eq_none none]
    exact (carries_of_moves moves).next
  | lost loss given =>
    obtain ⟨hnone, houtcomes⟩ := Answer.of_isLoss given
    rw [houtcomes, Call.text?_eq_none hnone]
    exact ⟨h.loss loss, List.forall_mem_nil _, loss.next⟩
  | ticked time =>
    exact ⟨⟨h.nodes, h.sound, h.waits, h.feeds, h.delivered, h.outcomes⟩,
      List.forall_mem_nil _, rfl⟩
  | disturbed d => exact ⟨h.disturb d, List.forall_mem_nil _, rfl⟩

/-- A run of calls over the graph keeps an engine faithful to the texts
that it accepts. -/
theorem answerAll {texts : List String} (h : e.Faithful (.ofTexts texts nodes) nodes)
    (calls : List Call) (planned : ∀ call ∈ calls, call.IsOverGraph)
    (htexts : texts.drop e.queue.nextSequence = e.texts calls) :
    (e.answerAll calls).2.Faithful (.ofTexts texts nodes) nodes ∧
      ∀ answer ∈ (e.answerAll calls).1, ∀ o ∈ answer.outcomes,
        o.Truthful (.ofTexts texts nodes) := by
  induction calls generalizing e with
  | nil => exact ⟨h, List.forall_mem_nil _⟩
  | cons call calls ih =>
    obtain ⟨hcall, hcalls⟩ := List.forall_mem_cons.mp planned
    have hfirst : texts.drop e.queue.nextSequence =
        (call.text? (e.answer call).1).toList ++ (e.answer call).2.texts calls := htexts
    obtain ⟨hnew, houtcomes, hnext⟩ :=
        h.answer call hcall fun query hquery plan hplan => by
      obtain ⟨q, hparse, hq⟩ := Plan.ofText_eq_ok hplan
      refine ⟨?_, q, hparse, ?_⟩
      · have hhead : (texts.drop e.queue.nextSequence)[0]? = some query := by
          rw [hfirst, hquery]
          rfl
        rw [List.getElem?_drop] at hhead
        exact hhead
      · rw [(MatchQuery.plan_of_ok hq).2.2, h.nodes]
    have hrest : texts.drop (e.answer call).2.queue.nextSequence =
        (e.answer call).2.texts calls := by
      rw [hnext, ← List.drop_drop, hfirst, List.drop_left]
    obtain ⟨hlast, hanswers⟩ := ih hnew hcalls hrest
    exact ⟨hlast, List.forall_mem_cons.mpr ⟨houtcomes, hanswers⟩⟩

end Faithful

/-- Every outcome that an engine over a graph gives, stores or drops is that of
a text which it accepted under the number of the outcome.  As completed it has
exactly the rows that the text means over the nodes of the graph, and as failed
a prefix of them.  This holds for every valid configuration and every order of
calls, whatever happens to the transaction in between. -/
theorem outcomes_of_meaning {config : Config} {names : Names} {graph : Graph}
    {start : Engine} (made : Engine.create config names graph = .ok start)
    (calls : List Call) (planned : ∀ call ∈ calls, call.IsOverGraph) :
    let answers := (start.answerAll calls).1
    let e := (start.answerAll calls).2
    ∀ o ∈ answers.flatMap Answer.outcomes ++ e.outcomes ++
      e.delivered.map Delivery.outcome,
      ∃ q, (start.texts calls)[o.sequence]? = some o.query ∧
        Query.parse o.query = .ok q ∧
        (o.status = .completed → o.rows.toList = q.meaning graph.nodes.toList) ∧
        ∀ reason, o.status = .failed reason →
        o.rows.toList <+: q.meaning graph.nodes.toList := by
  obtain ⟨hstart, hnext⟩ :=
    Faithful.create made (.ofTexts (start.texts calls) graph.nodes)
  obtain ⟨hlast, hanswers⟩ :=
    hstart.answerAll calls planned (by rw [hnext, List.drop_zero])
  intro answers e o ho
  have htruthful : o.Truthful (.ofTexts (start.texts calls) graph.nodes) := by
    rcases List.mem_append.mp ho with ho | ho
    · rcases List.mem_append.mp ho with ho | ho
      · obtain ⟨answer, hanswer, ho⟩ := List.mem_flatMap.mp ho
        exact hanswers answer hanswer o ho
      · exact hlast.outcomes o ho
    · obtain ⟨d, hd, rfl⟩ := List.mem_map.mp ho
      exact (hlast.delivered d hd).outcome
  obtain ⟨_, ⟨htext, q, hparse, rfl⟩, hcompleted, hfailed⟩ := htruthful
  exact ⟨q, htext, hparse, hcompleted, hfailed⟩

/-- A graph of two persons and a robot between them. -/
def personsAndRobot : Graph :=
  .ofNodes [(["Person"], [("age", .nat 30)]), (["Robot"], []),
    (["Person"], [("age", .nat 40)])]

def ageText : String := "MATCH (n:Person) WHERE n.age > 20 RETURN n.age LIMIT 1"

/-- The text asks for the age of the first person. -/
theorem meaning_ageText : (Query.parse ageText).toOption.map
    (fun q => (q.meaning personsAndRobot.nodes.toList).map Value.compact) =
      some ["\x7b\"n.age\":30\x7d"] := by
  decide +kernel

/-- Calls that step a query on its own, fail its next step and then
advance it in a batch. -/
def interruptedCalls : List Call :=
  [.execute Plan.ofText ageText, .execute Plan.ofText "MATCH (n) RETURN n",
    .propagateAt 0, .disturb (.inject 1), .propagateAt 0, .formAllBatches, .advanceNext,
    .disturb .close, .takeOutcomes]

/-- The one outcome that is taken has the age of the first person. -/
theorem outcomes_of_meaning_age :
    ∃ start, Engine.create {} default personsAndRobot = .ok start ∧
    let outcomes := (start.answerAll interruptedCalls).1.flatMap Answer.outcomes
    outcomes.map (fun o => (o.query, o.status)) = [(ageText, .completed)] ∧
      ∀ o ∈ outcomes, o.rows.toList.map Value.compact = ["\x7b\"n.age\":30\x7d"] := by
  have hmade : Engine.create {} default personsAndRobot =
      .ok (fresh {} default personsAndRobot) :=
    create_eq_ok_iff.mpr ⟨Config.validate_default, rfl⟩
  have hplanned : ∀ call ∈ interruptedCalls, call.IsOverGraph := by
    simp [interruptedCalls, Call.IsOverGraph]
  have hended :
    (((fresh {} default personsAndRobot).answerAll interruptedCalls).1.flatMap
      Answer.outcomes).map (fun o =>
          (o.query, o.status)) = [(ageText, .completed)] := by
    decide +kernel
  refine ⟨_, hmade, hended, ?_⟩
  intro o ho
  have hpair := List.mem_map_of_mem (f := fun o => (o.query, o.status)) ho
  rw [hended] at hpair
  obtain ⟨hquery, hstatus⟩ := Prod.mk.inj (List.mem_singleton.mp hpair)
  obtain ⟨q, -, hparse, hcompleted, -⟩ :=
    outcomes_of_meaning hmade interruptedCalls hplanned o
    (List.mem_append_left _ (List.mem_append_left _ ho))
  have hmeaning := meaning_ageText
  rw [← hquery, hparse] at hmeaning
  rw [hcompleted hstatus]
  exact Option.some.inj hmeaning

end Engine

end Lockstep
