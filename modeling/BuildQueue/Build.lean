import BuildQueue.Error
import BuildQueue.Tag
import BuildQueue.Time.Instant

/-!
# Builds

A build is a unit of CI work. While it is pending it stands in the queue, oldest first and with the
lower id first among builds queued at the same instant; an assignment takes it out.
-/

namespace BuildQueue

/-- Where a build is in its life. -/
inductive BuildStatus where
  | created
  | waitingForResource
  | preparing
  | pending
  | running
  | success
  | failed
  | canceled
  | skipped
  | manual
  | scheduled
  deriving DecidableEq, Repr, Inhabited

namespace BuildStatus

def all : List BuildStatus :=
  [.created, .waitingForResource, .preparing, .pending, .running, .success, .failed, .canceled,
    .skipped, .manual, .scheduled]

def name : BuildStatus → String
  | .created => "created"
  | .waitingForResource => "waiting_for_resource"
  | .preparing => "preparing"
  | .pending => "pending"
  | .running => "running"
  | .success => "success"
  | .failed => "failed"
  | .canceled => "canceled"
  | .skipped => "skipped"
  | .manual => "manual"
  | .scheduled => "scheduled"

def ofName? (s : String) : Option BuildStatus := all.find? (·.name = s)

def parse (s : String) : Except QueueError BuildStatus :=
  match ofName? s with
  | some status => .ok status
  | none => .error (.invalidInput ("unknown build status: " ++ s))

/-- The build is on its way and waits neither for a person nor for a set time. -/
def isActive : BuildStatus → Bool
  | .created | .waitingForResource | .preparing | .pending | .running => true
  | _ => false

/-- The build has come to an end. -/
def isComplete : BuildStatus → Bool
  | .success | .failed | .canceled | .skipped => true
  | _ => false

@[simp] theorem ofName?_name (status : BuildStatus) : ofName? status.name = some status := by
  cases status <;> decide

end BuildStatus

/-- Why a build is refused for reasons other than its runner. -/
inductive JobRejection where
  | quotaExceeded
  deriving DecidableEq, Repr, Inhabited

def JobRejection.reason : JobRejection → String
  | .quotaExceeded => "quota_exceeded"

/-- A build that waits in the queue. -/
@[ext]
structure QueuedBuild where
  jobId : JobId
  projectId : ProjectId
  namespaceId : NamespaceId
  tags : TagSet
  refProtected : Bool
  queuedAt : Instant
  deriving DecidableEq, Inhabited

/-- The place of a build in the queue. -/
@[ext]
structure QueueKey where
  queuedAt : Instant
  jobId : JobId
  deriving DecidableEq, Inhabited

namespace QueueKey

instance : Ord QueueKey :=
  ⟨fun a b ↦ (compare a.queuedAt b.queuedAt).then (compare a.jobId b.jobId)⟩

theorem compare_def (a b : QueueKey) :
    compare a b = (compare a.queuedAt b.queuedAt).then (compare a.jobId b.jobId) := rfl

instance : Std.TransOrd QueueKey :=
  inferInstanceAs (Std.TransCmp (compareLex (compareOn queuedAt) (compareOn jobId)))

instance : Std.LawfulEqOrd QueueKey where
  compare_self {a} := by simp [Std.ReflCmp.compare_self]
  eq_of_compare {a b} h := by
    rw [compare_def, Ordering.then_eq_eq] at h
    exact QueueKey.ext (Std.LawfulEqCmp.eq_of_compare h.1) (Std.LawfulEqCmp.eq_of_compare h.2)

end QueueKey

namespace QueuedBuild

def key (b : QueuedBuild) : QueueKey := ⟨b.queuedAt, b.jobId⟩

/-- Queue order: oldest first, then the lower id. -/
def order (a b : QueuedBuild) : Ordering := compare a.key b.key

/-- The builds in queue order; builds with equal keys keep their places. -/
def sort (bs : List QueuedBuild) : List QueuedBuild := bs.mergeSort fun a b ↦ (a.order b).isLE

end QueuedBuild

/-- A build handed to a runner. -/
@[ext]
structure Assignment where
  jobId : JobId
  runnerId : RunnerId
  claimedAt : Instant
  deriving DecidableEq, Inhabited

end BuildQueue
