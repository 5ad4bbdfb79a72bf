import BuildQueue.Store.Basic

/-!
# Store operations

A history of the store is a list of atomic operations. Each has a reply; one that is refused or
breaks off leaves the store as it was.
-/

namespace BuildQueue

/-- A write to the store. -/
inductive StoreOperation where
  | addNamespace (id : NamespaceId) (parent : Option NamespaceId)
  | putProject (project : ProjectRecord)
  | enqueue (build : NewBuild)
  | setStatus (job : JobId) (status : BuildStatus)
  | setProjectionAvailable (available : Bool)
  | tryClaim (job : JobId) (runner : RunnerId) (now : Instant)
  deriving DecidableEq

/-- What a write came to. -/
inductive StoreReply where
  | done
  | enqueued (job : JobId)
  | assigned (a : Assignment)
  | lost
  | refused (e : QueueError)
  /-- There was no id to count on to. -/
  | overflowed
  deriving DecidableEq

namespace Store

def apply (s : Store) : StoreOperation → StoreReply × Store
  | .addNamespace id parent => (.done, s.addNamespace id parent)
  | .putProject project => (.done, s.putProject project)
  | .enqueue build =>
    match s.enqueue build with
    | .ok (some (job, s)) => (.enqueued job, s)
    | .ok none => (.overflowed, s)
    | .error e => (.refused e, s)
  | .setStatus job status =>
    match s.setStatus job status with
    | .ok s => (.done, s)
    | .error e => (.refused e, s)
  | .setProjectionAvailable available => (.done, s.setProjectionAvailable available)
  | .tryClaim job runner now =>
    match s.tryClaim job runner now with
    | (some a, s) => (.assigned a, s)
    | (none, s) => (.lost, s)

end Store

end BuildQueue
