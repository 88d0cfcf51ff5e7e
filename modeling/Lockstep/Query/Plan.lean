import Lockstep.Pipeline.Basic
import Lockstep.Query.Parse
set_option autoImplicit false

/-!
# Plans

A plan says how a query will run: what it scans, where the rows come from and
through which links they pass.  Making one reads nothing, and opening it puts a
cursor at the start of its source.

The plan of a query over the graph is a scan of its kind, then a filter if there
are predicates, then the projection, then the limit if there is one.
-/

namespace Lockstep

/-- How a query will run. -/
structure Plan where
  kind : ScanKind
  source : Source
  links : List Link
  deriving Repr, Inhabited

/-- Open a plan: a pipeline with a cursor of its own. -/
def Plan.openScan (plan : Plan) (s : Scans) : Pipeline × Scans :=
  let (cursor, s) := s.openCursor plan.source
  ({ kind := plan.kind, cursor := cursor, links := plan.links }, s)

namespace MatchQuery

/-- The filter of a query without its predicates is no link at all. -/
def filterLinks (q : MatchQuery) : List Link :=
  if q.predicates.isEmpty then [] else [.filter q.predicates]

/-- The limit of a query, if its literal is one. -/
def limitLinks (q : MatchQuery) : Except LimitError (List Link) :=
  match q.limit with
  | none => .ok []
  | some value => (Link.ofLiteral value).map fun link => [link]

/-- Plan a query over the graph. -/
def plan (q : MatchQuery) : Except LimitError Plan := do
  let limit ← q.limitLinks
  return ⟨q.scanKind, .graph q.scanKind 0,
    q.filterLinks ++ [.project q.returns] ++ limit⟩

end MatchQuery

/-- Plan a query text over the graph. -/
def Plan.ofText (text : String) : Except Failure Plan :=
  match Query.parse text with
  | .error e => .error e.toFailure
  | .ok q =>
    match q.plan with
    | .error e => .error e.toFailure
    | .ok plan => .ok plan

end Lockstep
