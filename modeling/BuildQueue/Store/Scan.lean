import BuildQueue.Store.Basic
import BuildQueue.Strategy

/-!
# Reading the queue

The queue of a scope at a cutoff is read from the builds or from the projection, in queue order.
The projection can be out of reach; the builds cannot.
-/

namespace BuildQueue.Store

/-- The pending builds in scope, from the builds themselves. -/
def scanBuilds (s : Store) (scope : ProjectScope) (cutoff : Instant) : List QueuedBuild :=
  QueuedBuild.sort <|
    (s.builds.values.filterMap BuildRow.queued?).filter fun build ↦
      build.queuedAt ≤ cutoff && scope.admits build.projectId (s.openToInstance build.projectId)

/-- The pending builds in scope, from the projection. -/
def scanPending (s : Store) (scope : ProjectScope) (cutoff : Instant) :
    Except QueueError (List QueuedBuild) :=
  if s.projectionAvailable then
    let rows := s.pending.values.filter fun row ↦
      row.build.queuedAt ≤ cutoff && scope.admits row.build.projectId row.openToInstance
    .ok (QueuedBuild.sort (rows.map (·.build)))
  else .error .projectionUnavailable

/-- The queue as a strategy reads it. -/
def scan (s : Store) (strategy : StrategyKind) (scope : ProjectScope) (cutoff : Instant) :
    Except QueueError (List QueuedBuild) :=
  match strategy with
  | .directScan => .ok (s.scanBuilds scope cutoff)
  | .projection => s.scanPending scope cutoff

def depth (s : Store) (strategy : StrategyKind) (scope : ProjectScope) (cutoff : Instant) :
    Except QueueError Nat :=
  (s.scan strategy scope cutoff).map List.length

end BuildQueue.Store
