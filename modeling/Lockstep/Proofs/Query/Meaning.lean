import Lockstep.Proofs.Pipeline.Alone
import Lockstep.Query.Plan
set_option autoImplicit false

/-!
# What a query means

The meaning of a query over the nodes of a graph is told without plans, cursors
or steps: the rows of the nodes that carry the label, in the order of their
numbers, which satisfy every predicate, shaped into the columns and cut at the
limit.  The plan of a query scans for and links up just this.
-/

namespace Lockstep

/-- A literal that gives a limit is a natural number, and the limit lets so
many rows through. -/
theorem Link.ofLiteral_eq_ok {literal : Value} {link : Link}
    (h : ofLiteral literal = .ok link) :
    ∃ n : Nat, literal = .nat n ∧ link = ofQuota n := by
  unfold ofLiteral at h
  split at h
  · split at h
    · rename_i n
      split at h
      · unfold ofInt at h
        split at h
        · cases h
        · rename_i hpos
          cases h
          exact ⟨n.toNat, by rw [Value.nat, Int.toNat_of_nonneg (Int.not_lt.mp hpos)], rfl⟩
      · cases h
    · cases h
  · cases h

namespace MatchQuery

/-- Whether the pattern of the query fits a node: it names no label, or one that
the node carries. -/
def fits (q : MatchQuery) (node : Node) : Bool := q.label.all node.hasLabel

/-- Cut rows at the limit, if there is one. -/
def cut (q : MatchQuery) (rows : List Value) : List Value :=
  match q.limit with
  | some (.number (.int n)) => rows.take n.toNat
  | _ => rows

/-- The rows that the query asks for, over the nodes of a graph in the order
of their numbers. -/
def meaning (q : MatchQuery) (nodes : List Node) : List Value :=
  let rows := (nodes.filter q.fits).map Node.toRow
  let kept := rows.filter fun row => q.predicates.all fun p => p.holds row
  q.cut (kept.map (Item.shape q.returns))

/-- A scan of the query reads the nodes that its pattern fits. -/
theorem isIn_scanKind (q : MatchQuery) (node : Node) :
    node.isIn q.scanKind = q.fits node := by
  unfold scanKind fits
  cases q.label <;> rfl

theorem yield_filterLinks (q : MatchQuery) (rows : List Value) :
    Link.yield q.filterLinks rows = rows.filter fun row => q.predicates.all fun p =>
      p.holds row := by
  unfold filterLinks
  split
  · rename_i hnone
    rw [List.isEmpty_iff.mp hnone]
    exact (List.filter_eq_self.mpr fun _ _ => rfl).symm
  · rfl

/-- The limit that a query accepts cuts its rows. -/
theorem limitLinks_of_ok {q : MatchQuery} {links : List Link}
    (h : q.limitLinks = .ok links) :
    Link.IsSound links ∧ ∀ rows, Link.yield links rows = q.cut rows := by
  unfold limitLinks at h
  unfold cut
  cases hlimit : q.limit with
  | none =>
    rw [hlimit] at h
    cases h
    exact ⟨List.forall_mem_nil _, fun rows => rfl⟩
  | some literal =>
    rw [hlimit] at h
    dsimp only at h
    cases hlink : Link.ofLiteral literal with
    | error e =>
      rw [hlink] at h
      cases h
    | ok link =>
      rw [hlink] at h
      cases h
      obtain ⟨n, rfl, rfl⟩ := Link.ofLiteral_eq_ok hlink
      exact ⟨List.forall_mem_singleton.mpr rfl, fun rows => rfl⟩

/-- The plan of a query scans the nodes that its pattern fits from the first on,
and its chain has no fault and makes of their rows what the query means. -/
theorem plan_of_ok {q : MatchQuery} {plan : Plan} (h : q.plan = .ok plan) :
    plan.source = .graph plan.kind 0 ∧ Link.IsSound plan.links ∧
      ∀ g : Graph, Link.yield plan.links (g.rowsFrom plan.kind 0) =
        q.meaning g.nodes.toList := by
  unfold MatchQuery.plan at h
  cases hlimit : q.limitLinks with
  | error e =>
    rw [hlimit] at h
    cases h
  | ok limit =>
    rw [hlimit] at h
    cases h
    obtain ⟨hsound, hyield⟩ := limitLinks_of_ok hlimit
    refine ⟨rfl, ?_, ?_⟩
    · have hfilter : Link.IsSound q.filterLinks := by
        unfold filterLinks
        split
        · exact List.forall_mem_nil _
        · exact List.forall_mem_singleton.mpr rfl
      refine List.forall_mem_append.mpr
        ⟨List.forall_mem_append.mpr ⟨hfilter, ?_⟩, hsound⟩
      exact List.forall_mem_singleton.mpr rfl
    · intro g
      have hrows : g.rowsFrom q.scanKind 0 =
          (g.nodes.toList.filter q.fits).map Node.toRow := by
        unfold Graph.rowsFrom
        rw [List.drop_zero]
        exact congrArg (fun f => (g.nodes.toList.filter f).map Node.toRow)
          (funext q.isIn_scanKind)
      rw [Link.yield_append, Link.yield_append, hyield, yield_filterLinks, hrows]
      rfl

end MatchQuery

/-- A text is planned as the query that it is read as. -/
theorem Plan.ofText_eq_ok {text : String} {plan : Plan}
    (h : Plan.ofText text = .ok plan) :
    ∃ q, Query.parse text = .ok q ∧ q.plan = .ok plan := by
  unfold ofText at h
  split at h
  · cases h
  · rename_i q hparse
    split at h
    · cases h
    · rename_i found hplan
      cases h
      exact ⟨q, hparse, hplan⟩

end Lockstep
