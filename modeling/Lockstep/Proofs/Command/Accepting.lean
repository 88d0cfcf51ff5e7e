import Lockstep.Command.Run
import Lockstep.Proofs.Engine.Answers
import Lockstep.Proofs.Engine.Drain
import Lockstep.Proofs.Query.Lexing
set_option autoImplicit false

/-!
# Queries that are handed to an engine

A run makes an engine of a valid configuration over a graph that nothing
disturbs, and hands it one query after the other.  Those that can be planned are
numbered in their order from zero on; the others are refused and leave the
engine as it was.
-/

namespace Lockstep

/-! ## New engines -/

theorem Graph.isQuiet_ofNodes (nodes : List (List String × Fields)) :
    (ofNodes nodes).IsQuiet := by
  have hcreate : ∀ (nodes : List (List String × Fields)) (g : Graph), g.IsQuiet →
      (nodes.foldl (fun g node => g.create node.1 node.2) g).IsQuiet := by
    intro nodes
    induction nodes with
    | nil => exact fun _ h => h
    | cons node nodes ih => exact fun g h => ih _ h
  exact hcreate nodes {} ⟨rfl, rfl⟩

namespace Engine

variable {ex : Expectation} {nodes : Array Node} {count : Nat} {e : Engine}

/-- An engine of a valid configuration can be driven over a quiet graph, and has
room in its pool. -/
theorem underway_fresh {config : Config} (valid : config.validate = .ok ())
    (names : Names) {graph : Graph} (quiet : graph.IsQuiet) (ex : Expectation) :
    (fresh config names graph).Underway ex graph.nodes 0 ∧
      (fresh config names graph).HasRoom := by
  obtain ⟨hbatch, hstride, htolerance⟩ := Config.pos_of_validate valid
  have made : create config names graph = .ok (fresh config names graph) :=
    create_eq_ok_iff.mpr ⟨valid, rfl⟩
  refine ⟨⟨rfl, (accounts_create made).1, .fresh config names graph,
    (Faithful.create made ex).1, ?_, hbatch, hstride⟩, _, rfl, ?_⟩
  · exact ⟨quiet, List.forall_mem_nil _, List.forall_mem_nil _⟩
  · refine Nat.lt_min.mpr ⟨Nat.mul_pos ?_ htolerance, Nat.succ_pos _⟩
    exact Nat.lt_of_lt_of_le Nat.one_pos (Nat.le_max_right _ _)

/-- A query that is accepted gets the next number, and the engine can
still be driven. -/
theorem Underway.accepted (h : e.Underway ex nodes count) {query : String} {plan : Plan}
    (planned : Plan.ofText query = .ok plan)
    (expected : ∀ q, Query.parse query = .ok q →
      ex count query (q.meaning nodes.toList)) :
    (e.execute Plan.ofText query).1 = .ok count ∧
      (e.execute Plan.ofText query).2.Underway ex nodes (count + 1) := by
  obtain ⟨q, hparse, hq⟩ := Plan.ofText_eq_ok planned
  obtain ⟨hsource, hsound, hyield⟩ := MatchQuery.plan_of_ok hq
  obtain ⟨hsequence, hrest⟩ := e.execute_of_ok planned
  refine ⟨h.next ▸ hsequence, ?_, (h.accounts.accepted hrest).accounts,
    h.registered.congr hrest.registry, ?_,
      ((h.fluent.accepted hsource hsound).receives hrest).1,
    hrest.config ▸ h.batchSize, hrest.config ▸ h.stride⟩
  · rw [hrest.queue, ← h.next]
    rfl
  · refine (h.faithful.accepted hsource hsound ?_).receives hrest
      (List.forall_mem_nil _)
    rw [hyield, h.faithful.nodes, h.next]
    exact expected q hparse

end Engine

/-! ## Handing over queries -/

namespace Run

/-- The texts that are accepted, since they can be planned. -/
def accepted (texts : List String) : List String :=
  texts.filter fun text => (Plan.ofText text).isOk

/-- What becomes of a text that would get a number. -/
def verdict (next : Nat) (text : String) : Except EngineError Nat :=
  match Plan.ofText text with
  | .error f => .error (.query f)
  | .ok _ => .ok next

/-- What becomes of texts that are handed over from a number on. -/
def numbered : Nat → List String → List (String × Except EngineError Nat)
  | _, [] => []
  | next, text :: texts =>
    (text, verdict next text) :: numbered (next + (accepted [text]).length) texts

theorem accepted_append (texts more : List String) :
    accepted (texts ++ more) = accepted texts ++ accepted more :=
  List.filter_append texts more

theorem accepted_cons (text : String) (texts : List String) :
    accepted (text :: texts) = accepted [text] ++ accepted texts :=
  accepted_append [text] texts

theorem accepted_of_error {text : String} {f : Failure}
    (h : Plan.ofText text = .error f) :
    accepted [text] = [] := by
  unfold accepted
  rw [List.filter_singleton, h]
  rfl

theorem accepted_of_ok {text : String} {plan : Plan} (h : Plan.ofText text = .ok plan) :
    accepted [text] = [text] := by
  unfold accepted
  rw [List.filter_singleton, h]
  rfl

theorem getElem?_accepted {index : Nat} {texts : List String} {text : String}
    {plan : Plan} (own : texts[index]? = some text)
    (planned : Plan.ofText text = .ok plan) :
    (accepted texts)[(accepted (texts.take index)).length]? = some text := by
  obtain ⟨hindex, hown⟩ := List.getElem?_eq_some_iff.mp own
  have hsplit : texts.take index ++ ([text] ++ texts.drop (index + 1)) = texts := by
    rw [← hown, List.singleton_append, List.cons_getElem_drop_succ,
      List.take_append_drop]
  have haccepted := congrArg accepted hsplit
  rw [accepted_append, accepted_append, accepted_of_ok planned] at haccepted
  rw [← haccepted, List.getElem?_append_right (Nat.le_refl _), Nat.sub_self]
  rfl

theorem length_numbered (next : Nat) (texts : List String) :
    (numbered next texts).length = texts.length := by
  induction texts generalizing next with
  | nil => rfl
  | cons text texts ih => exact congrArg (· + 1) (ih _)

/-- A text gets the number that follows those accepted before it. -/
theorem getElem?_numbered (next : Nat) {index : Nat} {texts : List String}
    {text : String} (h : texts[index]? = some text) :
    (numbered next texts)[index]? =
      some (text, verdict (next + (accepted (texts.take index)).length) text) := by
  induction texts generalizing next index with
  | nil => cases h
  | cons first texts ih =>
    cases index with
    | zero =>
      cases h
      rfl
    | succ index =>
      have hrest := ih (next + (accepted [first]).length) h
      rw [List.take_succ_cons, accepted_cons, List.length_append, ← Nat.add_assoc]
      exact hrest

/-- The numbers that are given out follow one another. -/
theorem filterMap_numbered (next : Nat) (texts : List String) :
    (numbered next texts).filterMap (·.2.toOption) =
      List.range' next (accepted texts).length := by
  induction texts generalizing next with
  | nil => rfl
  | cons text texts ih =>
    rw [numbered, List.filterMap_cons, ih, accepted_cons text texts, List.length_append]
    unfold verdict
    cases hplan : Plan.ofText text with
    | error f =>
      rw [accepted_of_error hplan, List.length_nil, Nat.zero_add]
      rfl
    | ok plan =>
      rw [accepted_of_ok hplan, List.length_singleton, Nat.add_comm 1]
      exact List.range'_succ.symm

variable {nodes : Array Node} {count : Nat} {e : Engine}

/-- The texts are numbered in order, and the engine can still be driven. -/
theorem acceptAll_spec {all texts : List String}
    (h : e.Underway (.ofTexts all nodes) nodes count)
    (next : all.drop count = accepted texts) :
    (acceptAll e texts).1 = numbered count texts ∧
      (acceptAll e texts).2.Underway (.ofTexts all nodes) nodes
        (count + (accepted texts).length) := by
  induction texts generalizing e count with
  | nil => exact ⟨rfl, h⟩
  | cons text texts ih =>
    rw [accepted_cons] at next ⊢
    unfold acceptAll numbered verdict
    cases hplan : Plan.ofText text with
    | error f =>
      rw [accepted_of_error hplan] at next ⊢
      rw [e.execute_of_error hplan]
      obtain ⟨hnumbered, hlast⟩ := ih h next
      exact ⟨congrArg _ hnumbered, hlast⟩
    | ok plan =>
      rw [accepted_of_ok hplan] at next ⊢
      have hown : all[count]? = some text := by
        have hhead : (all.drop count)[0]? = some text := by rw [next]; rfl
        rwa [List.getElem?_drop] at hhead
      obtain ⟨hsequence, hunderway⟩ := h.accepted hplan fun q hparse =>
        ⟨hown, q, hparse, rfl⟩
      generalize e.execute Plan.ofText text = result at hsequence hunderway
      obtain ⟨result, e'⟩ := result
      subst hsequence
      have hrest : all.drop (count + 1) = accepted texts := by
        rw [← List.drop_drop, next]
        rfl
      obtain ⟨hnumbered, hlast⟩ := ih hunderway hrest
      refine ⟨congrArg _ hnumbered, ?_⟩
      rw [List.length_append, ← Nat.add_assoc]
      exact hlast

/-- What lasts while queries are accepted lasts while they are handed over. -/
theorem lasting_acceptAll {P : Engine → Prop} (hP : Engine.Lasting P)
    (texts : List String) (h : P e) :
    P (acceptAll e texts).2 := by
  induction texts generalizing e with
  | nil => exact h
  | cons text texts ih => exact ih (hP.execute Plan.ofText text h)

end Run

end Lockstep
