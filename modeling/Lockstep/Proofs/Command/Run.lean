import Lockstep.Proofs.Command.Accepting
import Lockstep.Proofs.Command.Reporting
import Lockstep.Proofs.Engine.Schedule
import Lockstep.Proofs.Engine.Store
set_option autoImplicit false

/-!
# Runs report every query, but not every outcome

A run over a graph that nothing disturbs always ends with a report: one line for
each query in the order of the file, and the metrics.  Since outcomes are taken
out of the store only after all batches have been driven, those of the lowest
numbers are gone by then if more queries were accepted than the store has room
for.  All of this is true of every schedule that drives the batches until none
remains, and however much time passes between the turns of a drain.
-/

namespace Lockstep

namespace Command

/-- A configuration that was loaded is valid. -/
theorem validate_of_loadConfig {file : Option InputFile} {c : Config}
    (h : loadConfig file = .ok c) :
    c.validate = .ok () := by
  unfold loadConfig at h
  split at h
  · cases h
    exact Config.validate_default
  · split at h
    · cases h
    · rename_i file' config hconfig
      cases h
      unfold InputFile.config at hconfig
      split at hconfig
      · cases hconfig
      · unfold Config.ofText at hconfig
        split at hconfig
        · cases hconfig
        · split at hconfig
          · cases hconfig
          · cases hconfig
            assumption

end Command

namespace Engine

variable {ex : Expectation} {nodes : Array Node} {count capacity : Nat} {e e' : Engine}

/-! ## What the lines of a report hang on -/

/-- So many numbers were given out, all are accounted for, what was delivered is
truthful, and the store has what is left of it. -/
structure Reportable (ex : Expectation) (nodes : Array Node) (count capacity : Nat)
    (e : Engine) :
    Prop where
  next : e.queue.nextSequence = count
  accounts : e.Accounts
  faithful : e.Faithful ex nodes
  stocked : e.Stocked capacity

namespace Reportable

theorem moves (h : e.Reportable ex nodes count capacity) (hmoves : Moves e e')
    (stocked : e'.Stocked capacity) : e'.Reportable ex nodes count capacity :=
  ⟨(carries_of_moves hmoves).next.trans h.next, h.accounts.moves hmoves,
    h.faithful.moves hmoves, stocked⟩

theorem unmoved (h : e.Reportable ex nodes count capacity) (unmoved : Unmoved e e') :
    e'.Reportable ex nodes count capacity :=
  h.moves (.single (.idle unmoved.receives)) (h.stocked.unmoved unmoved)

/-- A request that drives batches keeps this up. -/
theorem request (h : e.Reportable ex nodes count capacity) {request : Request}
    (drive : request.IsDrive)
    (clock : ∀ time, request = .call (.tick time) →
      (Calendar.instant? (time - e.ledger.retention)).isSome = true) :
    (e.request request).Reportable ex nodes count capacity := by
  have hcase := e.driveCase drive
  generalize e.request request = e' at hcase
  cases hcase with
  | formed =>
    exact h.moves (.single e.move_formBatch)
      ((lasting_stocked capacity).formBatch h.stocked)
  | next =>
    exact h.moves (.single e.move_advanceNext)
      ((lasting_stocked capacity).advanceNext h.stocked)
  | @index _ e₁ _ before index behind =>
    have hbefore := h.unmoved before
    exact (hbefore.moves (.single (e₁.move_advanceIndex index))
      ((lasting_stocked capacity).advanceIndex index hbefore.stocked)).unmoved behind
  | unmoved unmoved => exact h.unmoved unmoved
  | ticked time =>
    have hready := Ledger.obstacle?_of_isSome (clock time rfl)
    exact ⟨h.next, ⟨h.accounts.sound, h.accounts.unlocked, hready, h.accounts.numbers⟩,
      ⟨h.faithful.nodes, h.faithful.sound, h.faithful.waits, h.faithful.feeds,
        h.faithful.delivered, h.faithful.outcomes⟩, ⟨hready, h.stocked.limit,
        h.stocked.outcomes⟩⟩

theorem requestAll (h : e.Reportable ex nodes count capacity) (requests : List Request)
    (drives : ∀ request ∈ requests, request.IsDrive)
    (clock : ∀ time, .call (.tick time) ∈ requests →
      (Calendar.instant? (time - e.ledger.retention)).isSome = true) :
    (e.requestAll requests).Reportable ex nodes count capacity := by
  induction requests generalizing e with
  | nil => exact h
  | cons request requests ih =>
    obtain ⟨hdrive, hdrives⟩ := List.forall_mem_cons.mp drives
    have hfirst := h.request hdrive fun time htime =>
      clock time (htime ▸ List.mem_cons_self)
    refine ih hfirst hdrives fun time htime => ?_
    rw [e.retention_request request]
    exact clock time (List.mem_cons_of_mem _ htime)

theorem scheduled (h : e.Reportable ex nodes count capacity) {readings : List Nat}
    (clock : ∀ reading ∈ readings,
      (Calendar.instant? (reading - e.ledger.retention)).isSome = true)
    (scheduled : Scheduled readings e e') : e'.Reportable ex nodes count capacity := by
  obtain ⟨requests, hrequests, rfl⟩ := scheduled
  refine h.requestAll requests
    (fun request hrequest => (hrequests request hrequest).1) ?_
  intro time htime
  obtain ⟨reading, hreading, rfl⟩ := (hrequests _ htime).2 time rfl
  exact clock reading hreading

end Reportable

end Engine

namespace Run

variable {ex : Expectation} {nodes : Array Node} {count capacity : Nat}
  {e last : Engine}

/-! ## The stages of a run -/

/-- Every text is handed over, and afterwards the engine can be driven. -/
theorem start_spec {c : Config} (valid : c.validate = .ok ()) (names : Names)
    {graph queries : InputFile} {nodes : List Node} {texts : List String}
    (built : graph.nodes = .ok nodes) (listed : queries.queries = .ok texts)
    (strategy : Strategy) :
    ∃ e, start c names graph queries strategy = .ok ⟨strategy, numbered 0 texts, e⟩ ∧
      e.Underway (.ofTexts (accepted texts) (GraphFile.toGraph nodes).nodes)
        (GraphFile.toGraph nodes).nodes (accepted texts).length ∧
      e.propagating = false ∧ e.HasRoom ∧ e.Stocked c.outcomeCapacity ∧
      e.ledger.retention = c.retentionMs := by
  let new := Engine.fresh c names (GraphFile.toGraph nodes)
  have hquiet : (GraphFile.toGraph nodes).IsQuiet := Graph.isQuiet_ofNodes _
  obtain ⟨hunderway, hroom⟩ := Engine.underway_fresh valid names hquiet
    (.ofTexts (accepted texts) (GraphFile.toGraph nodes).nodes)
  obtain ⟨hnumbered, hlast⟩ := acceptAll_spec hunderway rfl
  have hworkers :=
    lasting_acceptAll (Engine.lasting_workers new.pool new.numWorkers new.propagating)
    texts (e := new) ⟨rfl, rfl, rfl⟩
  refine ⟨(acceptAll new texts).2, ?_, ?_, hworkers.2.2,
    lasting_acceptAll Engine.lasting_hasRoom texts hroom,
    lasting_acceptAll (Engine.lasting_stocked _) texts (.fresh c names _),
    lasting_acceptAll (Engine.lasting_retention _) texts (e := new) rfl⟩
  · have hmade : Engine.create c names (GraphFile.toGraph nodes) = .ok new :=
      Engine.create_eq_ok_iff.mpr ⟨valid, rfl⟩
    unfold start
    rw [built, listed, ← hnumbered]
    dsimp only [bind, Except.bind]
    rw [hmade]
    rfl
  · rw [Nat.zero_add] at hlast
    exact hlast

/-- A run whose batches are driven while the clocks show these times. -/
def driveDuring (readings : List Nat) (r : Run) : Except Stop Unit × Engine :=
  (r.driveIn Engine.readNext readings).1

/-- A run takes no time but for the waits of its drain. -/
theorem drive_eq (r : Run) :
    r.drive = match r.driveDuring [] with
      | (.error stop, _) => .error (stopError stop)
      | (.ok (), engine) => .ok { r with engine := engine } := by
  have hdrain : Id.run (r.driveIn pure) = r.driveDuring [] := by
    obtain ⟨strategy, queries, e⟩ := r
    cases strategy with
    | scan => exact e.propagateDuring_nil.symm
    | dispatch => exact e.dispatchDuring_nil.symm
  unfold drive
  generalize Id.run (r.driveIn pure) = drained at hdrain
  subst hdrain
  rfl

/-- Driving the batches succeeds by either strategy, is a schedule and
leaves no operation. -/
theorem driveDuring_spec (h : e.Underway ex nodes count) (idle : e.propagating = false)
    (room : e.HasRoom) (strategy : Strategy)
    (queries : List (String × Except EngineError Nat)) {readings : List Nat}
    (clock : ∀ reading ∈ readings,
      (Calendar.instant? (reading - e.ledger.retention)).isSome = true) :
    ∃ last, driveDuring readings ⟨strategy, queries, e⟩ = (.ok (), last) ∧
      Engine.Scheduled readings e last ∧ last.remaining = 0 := by
  unfold driveDuring driveIn
  cases strategy with
  | scan =>
    obtain ⟨hok, hscheduled, hzero⟩ := h.propagateDuring idle room clock
    exact ⟨_, Prod.ext hok rfl, hscheduled, hzero⟩
  | dispatch =>
    obtain ⟨hok, hscheduled, hzero⟩ := h.dispatchDuring idle room clock
    exact ⟨_, Prod.ext hok rfl, hscheduled, hzero⟩

/-- The report has the line of every query, and then the metrics. -/
theorem report_spec (strategy : Strategy) (texts : List String) (last : Engine) :
    (report ⟨strategy, numbered 0 texts, last⟩).1 =
      (numbered 0 texts).map (Report.line last) ++ [Report.metrics last] := by
  have hdistinct : ((numbered 0 texts).filterMap (·.2.toOption)).Nodup :=
    filterMap_numbered 0 texts ▸ List.nodup_range'
  obtain ⟨hlines, stored, hlast⟩ := Report.outcomes_eq_map last hdistinct
  have hreport : (report ⟨strategy, numbered 0 texts, last⟩).1 =
      (Report.outcomes last (numbered 0 texts)).1 ++
        [Report.metrics (Report.outcomes last (numbered 0 texts)).2] := rfl
  rw [hreport, hlines, hlast]
  rfl

/-! ## What a line tells -/

/-- What the line of a query can be, if the engine behind the report has
accepted so many queries and `number` of them before this one. -/
inductive Reported (nodes : List Node) (capacity count number : Nat) (last : Engine)
    (text : String) :
    Value → Prop
  /-- the query was refused -/
  | rejected {f : Failure} (refused : Plan.ofText text = .error f) :
      Reported nodes capacity count number last text (Report.rejection text (.query f))
  /-- the query was accepted, and its own outcome is told -/
  | answered {plan : Plan} {q : MatchQuery} {o : Outcome}
      (planned : Plan.ofText text = .ok plan)
      (parsed : Query.parse text = .ok q) (kept : count ≤ number + capacity)
      (sequence : o.sequence = number) (query : o.query = text)
      (completed : o.status = .completed → o.rows.toList = q.meaning nodes)
      (failed : ∀ reason, o.status = .failed reason →
        o.rows.toList <+: q.meaning nodes) :
      Reported nodes capacity count number last text
        (o.toValue [("latency_us", Report.latency last number)])
  /-- the query was accepted, but its outcome is not there any more -/
  | dropped {plan : Plan} (planned : Plan.ofText text = .ok plan)
      (lost : number + capacity < count) :
      Reported nodes capacity count number last text
        (Report.error CommandSubject.engine.code
          ("no outcome for operation " ++ toString number))

/-- The line of a query after everything was delivered. -/
theorem reported_line {texts : List String}
    (h : last.Reportable (.ofTexts (accepted texts) nodes) nodes
      (accepted texts).length capacity) (none : last.remaining = 0) {index : Nat}
    {text : String} (own : texts[index]? = some text) :
    let number := (accepted (texts.take index)).length
    Reported nodes.toList capacity (accepted texts).length number last text
      (Report.line last (text, verdict number text)) := by
  intro number
  unfold verdict
  cases hplan : Plan.ofText text with
  | error f => exact .rejected hplan
  | ok plan =>
    have hnumber : (accepted texts)[number]? = some text := getElem?_accepted own hplan
    have hbelow : number < (accepted texts).length :=
      (List.getElem?_eq_some_iff.mp hnumber).1
    have hall := h.accounts.completed_of_remaining none
    rw [h.next] at hall
    have hstored : (∃ o ∈ last.outcomes, o.sequence = number) ↔
        number < (accepted texts).length ∧ (accepted texts).length ≤
            number + capacity :=
      h.stocked.exists_outcome_iff hall
    unfold Report.line
    dsimp only
    cases hfound : last.outcomes.find? fun o => o.sequence == number with
    | none =>
      rw [Report.outcome_of_none hfound]
      refine .dropped hplan (Nat.lt_of_not_le fun hkept => ?_)
      obtain ⟨o, ho, hsequence⟩ := hstored.mpr ⟨hbelow, hkept⟩
      exact List.find?_eq_none.mp hfound o ho (beq_iff_eq.mpr hsequence)
    | some o =>
      rw [Report.outcome_of_some hfound]
      have ho : o ∈ last.outcomes := List.mem_of_find?_eq_some hfound
      have hsequence : o.sequence = number :=
        beq_iff_eq.mp
          (List.find?_some (p := fun o : Outcome => o.sequence == number) hfound)
      obtain ⟨rows, ⟨htext, q, hparse, rfl⟩, hcompleted, hfailed⟩ :=
        h.faithful.outcomes o ho
      rw [hsequence, hnumber] at htext
      have hquery : o.query = text := (Option.some.inj htext).symm
      exact .answered hplan (hquery ▸ hparse)
        (hstored.mp ⟨o, ho, hsequence⟩).2 hsequence hquery hcompleted
        hfailed

/-- What a report tells of texts after everything was delivered: a line for each
of them, in order. -/
def Tells (nodes : List Node) (capacity : Nat) (texts : List String) (last : Engine)
    (reported : List Value) : Prop :=
  reported.length = texts.length ∧
    ∀ index text, texts[index]? = some text → ∃ line, reported[index]? = some line ∧
      Reported nodes capacity (accepted texts).length
        (accepted (texts.take index)).length last text line

/-- The report of a run after everything was delivered. -/
theorem report_tells (strategy : Strategy) {texts : List String}
    (h : last.Reportable (.ofTexts (accepted texts) nodes) nodes
      (accepted texts).length capacity) (none : last.remaining = 0) :
    ∃ reported, (report ⟨strategy, numbered 0 texts, last⟩).1 =
      reported ++ [Report.metrics last] ∧
      Tells nodes.toList capacity texts last reported := by
  refine ⟨_, report_spec strategy texts last, ?_, fun index text own => ?_⟩
  · rw [List.length_map, length_numbered]
  · have hverdict := getElem?_numbered 0 own
    rw [Nat.zero_add] at hverdict
    refine ⟨_, ?_, reported_line h none own⟩
    rw [List.getElem?_map, hverdict]
    rfl

/-- A run of any valid configuration, over any graph that can be read and by
either strategy, reports every query of its file in order, and then the metrics.
The line of a query that cannot be planned is its rejection.  The queries that
can be planned are numbered in order, and the line of each that fewer of them
follow than the store has room for is its own outcome: as completed with the
rows that the text means over the nodes of the graph, as failed with the first
of them.  The others have lost their outcome by the time of the report, and
their line tells no more than that.

So it is however much time passes between the turns of the drain, and if the
batches are formed and advanced by any other schedule that leaves none, by
whichever workers: only the ledger's clock has to stay in reach. -/
theorem lines_report_queries {config : Option InputFile} {c : Config}
    {graph queries : InputFile} {nodes : List Node} {texts : List String}
    (configured : Command.loadConfig config = .ok c) (built : graph.nodes = .ok nodes)
    (listed : queries.queries = .ok texts) (names : Names) (strategy : Strategy) :
    let tells := Tells (GraphFile.toGraph nodes).nodes.toList c.outcomeCapacity texts
    (∃ (reported : List Value) (last : Engine),
      lines config names graph queries strategy =
        .ok (reported ++ [Report.metrics last]) ∧
        last.remaining = 0 ∧ tells last reported) ∧
    ∃ run, start c names graph queries strategy = .ok run ∧
      (∀ readings : List Nat,
        (∀ reading ∈ readings,
          (Calendar.instant? (reading - c.retentionMs)).isSome = true) →
        ∃ (reported : List Value) (last : Engine),
          run.driveDuring readings = (.ok (), last) ∧
          last.remaining = 0 ∧ tells last reported ∧
          (report { run with engine := last }).1 = reported ++ [Report.metrics last]) ∧
      ∀ schedule : List Engine.Request, (∀ request ∈ schedule, request.IsDrive) →
        (∀ time, .call (.tick time) ∈ schedule →
          (Calendar.instant? (time - c.retentionMs)).isSome = true) →
        (run.engine.requestAll schedule).remaining = 0 →
        ∃ reported, tells (run.engine.requestAll schedule) reported ∧
          (report { run with engine := run.engine.requestAll schedule }).1 =
            reported ++ [Report.metrics (run.engine.requestAll schedule)] := by
  intro tells
  obtain ⟨e, hstart, hunderway, hidle, hroom, hstocked, hretention⟩ :=
    start_spec (Command.validate_of_loadConfig configured) names built listed strategy
  have hreportable :
    e.Reportable (.ofTexts (accepted texts) (GraphFile.toGraph nodes).nodes)
      (GraphFile.toGraph nodes).nodes (accepted texts).length c.outcomeCapacity :=
    ⟨hunderway.next, hunderway.accounts, hunderway.faithful, hstocked⟩
  have hdriven : ∀ readings : List Nat,
      (∀ reading ∈ readings,
        (Calendar.instant? (reading - c.retentionMs)).isSome = true) →
      ∃ (reported : List Value) (last : Engine),
        driveDuring readings ⟨strategy, numbered 0 texts, e⟩ = (.ok (), last) ∧
          last.remaining = 0 ∧ tells last reported ∧
          (report ⟨strategy, numbered 0 texts, last⟩).1 =
              reported ++ [Report.metrics last] := by
    intro readings clock
    rw [← hretention] at clock
    obtain ⟨last, hdrive, hscheduled, hzero⟩ :=
      driveDuring_spec hunderway hidle hroom strategy (numbered 0 texts) clock
    obtain ⟨reported, hreport, htells⟩ :=
      report_tells strategy (hreportable.scheduled clock hscheduled) hzero
    exact ⟨reported, last, hdrive, hzero, htells, hreport⟩
  refine ⟨?_, _, hstart, hdriven, fun schedule drives clock none => ?_⟩
  · obtain ⟨reported, last, hdrive, hzero, htells, hreport⟩ :=
      hdriven [] (List.forall_mem_nil _)
    refine ⟨reported, last, ?_, hzero, htells⟩
    unfold lines
    rw [configured]
    dsimp only [bind, Except.bind]
    rw [hstart]
    dsimp only
    rw [drive_eq, hdrive]
    exact congrArg Except.ok hreport
  · rw [← hretention] at clock
    obtain ⟨reported, hreport, htells⟩ :=
      report_tells strategy (hreportable.requestAll schedule drives clock) none
    exact ⟨reported, htells, hreport⟩

/-- A configuration whose store has room for one outcome. -/
def tightConfig : InputFile := ⟨"tight.json", .ok "\x7b\"outcome_capacity\": 1\x7d"⟩

/-- A graph of one person. -/
def personGraph : InputFile :=
  ⟨"person.json",
    .ok
      "\x7b\"nodes\":[\x7b\"labels\":[\"Person\"],\"properties\":\x7b\"id\":0\x7d\x7d]\x7d"⟩

/-- Two queries, and between them a text that is none. -/
def personTexts : List String :=
  ["MATCH (n) RETURN n.id", "MATCH", "MATCH (n) RETURN n"]

def personQueries : InputFile := ⟨"person.txt", .ok ("\n".intercalate personTexts)⟩

/-- The second query is the last that is accepted, and so its own outcome is told. -/
theorem lines_report_queries_person :
    ∃ (reported : List Value) (last : Engine) (o : Outcome),
    lines (some tightConfig) default personGraph personQueries .scan =
      .ok (reported ++ [Report.metrics last]) ∧ reported.length = 3 ∧
      reported[2]? = some (o.toValue [("latency_us", Report.latency last 1)]) ∧
      personTexts[2]? = some o.query := by
  have hconfigured :
      ((Command.loadConfig (some tightConfig)).toOption.map (·.outcomeCapacity)) = some 1 := by
    decide +kernel
  have hbuilt : personGraph.nodes.isOk = true := by decide +kernel
  have hlisted : personQueries.queries = .ok personTexts := by decide +kernel
  have hplanned : (Plan.ofText "MATCH (n) RETURN n").isOk = true := by decide +kernel
  have hcount : (accepted personTexts).length = 2 ∧
      (accepted (personTexts.take 2)).length = 1 := by
    decide +kernel
  cases hconfig : Command.loadConfig (some tightConfig) with
  | error e =>
    rw [hconfig] at hconfigured
    cases hconfigured
  | ok c =>
    rw [hconfig] at hconfigured
    have hcapacity : c.outcomeCapacity = 1 := Option.some.inj hconfigured
    cases hnodes : personGraph.nodes with
    | error e =>
      rw [hnodes] at hbuilt
      cases hbuilt
    | ok nodes =>
      obtain ⟨⟨reported, last, hlines, -, hlength, hreported⟩, -⟩ :=
        lines_report_queries hconfig hnodes hlisted default .scan
      obtain ⟨line, hline, htells⟩ := hreported 2 _ rfl
      rw [hcapacity, hcount.1, hcount.2] at htells
      cases htells with
      | rejected refused =>
        rw [refused] at hplanned
        cases hplanned
      | answered planned parsed kept sequence query completed failed =>
        exact ⟨reported, last, _, hlines, hlength, hline, congrArg some query.symm⟩
      | dropped planned lost => exact absurd lost (by decide)

/-- The outcome of the first query is lost, although it was accepted. -/
theorem first_outcome_lost :
    accepted personTexts = [personTexts[0], personTexts[2]] ∧
      (lines (some tightConfig) default personGraph personQueries .scan).toOption.map
        (fun lines => lines[0]?.map Value.compact) =
        some (some ("\x7b\"code\":\"AERO_CLI_ENGINE_ERROR\"," ++
          "\"message\":\"no outcome for operation 0\",\"status\":\"error\"\x7d")) := by
  decide +kernel

end Run

end Lockstep
