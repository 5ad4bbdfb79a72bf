import BuildQueue.Build
import BuildQueue.Project
import BuildQueue.Table

/-!
# The store

The store keeps namespaces, projects and builds, and beside them the projection: one row for each
pending build, with the flag of its project that instance runners need. Every write that changes
the status of a build or the flags of a project brings the rows it concerns up to date.
-/

namespace BuildQueue

/-- A build as the store keeps it. -/
@[ext]
structure BuildRow where
  id : JobId
  projectId : ProjectId
  namespaceId : NamespaceId
  status : BuildStatus
  tags : TagSet
  refProtected : Bool
  queuedAt : Option Instant
  runnerId : Option RunnerId
  startedAt : Option Instant
  deriving DecidableEq, Inhabited

/-- The build as it waits in the queue, if it is pending. -/
def BuildRow.queued? (row : BuildRow) : Option QueuedBuild :=
  row.queuedAt.bind fun queuedAt ↦
    if row.status = .pending then
      some {
        jobId := row.id
        projectId := row.projectId
        namespaceId := row.namespaceId
        tags := row.tags
        refProtected := row.refProtected
        queuedAt }
    else none

/-- A build to put into the queue. -/
structure NewBuild where
  projectId : ProjectId
  tags : TagSet
  refProtected : Bool
  queuedAt : Instant
  deriving DecidableEq

/-- A row of the projection. -/
@[ext]
structure PendingRow where
  build : QueuedBuild
  /-- The project of the build is open to instance runners. -/
  openToInstance : Bool
  deriving DecidableEq, Inhabited

/-- Everything the queue knows. -/
@[ext]
structure Store where
  /-- Each namespace with its parent. -/
  namespaces : Table NamespaceId (Option NamespaceId)
  projects : Table ProjectId ProjectRecord
  builds : Table JobId BuildRow
  /-- The projection. -/
  pending : Table JobId PendingRow
  nextJobId : JobId
  projectionAvailable : Bool
  deriving DecidableEq

namespace Store

/-- The store before anything is put into it; jobs are numbered from one. -/
def empty : Store := ⟨.empty, .empty, .empty, .empty, ⟨1⟩, true⟩

instance : Inhabited Store := ⟨empty⟩

/-- Whether a known project is open to instance runners. -/
def openToInstance (s : Store) (project : ProjectId) : Bool :=
  (s.projects.find? project).any ProjectRecord.acceptsInstanceRunners

/-- Brings the projection's row of a build up to date. -/
def sync (s : Store) (job : JobId) : Store :=
  match (s.builds.find? job).bind BuildRow.queued? with
  | some build =>
    { s with pending := s.pending.insert job ⟨build, s.openToInstance build.projectId⟩ }
  | none => { s with pending := s.pending.erase job }

/-! ## Writes -/

def addNamespace (s : Store) (id : NamespaceId) (parent : Option NamespaceId) : Store :=
  { s with namespaces := s.namespaces.insert id parent }

/-- Adds or replaces a project; its pending builds take over the new flags. -/
def putProject (s : Store) (project : ProjectRecord) : Store :=
  let affected := s.pending.values.filter fun row ↦ row.build.projectId = project.id
  let s := { s with projects := s.projects.insert project.id project }
  affected.foldl (fun s row ↦ s.sync row.build.jobId) s

/-- Adds a pending build to a known project, under the next id. It has to count on to the id after
that before anything is written; where there is none it breaks off with nothing done. -/
def enqueue (s : Store) (build : NewBuild) : Except QueueError (Option (JobId × Store)) :=
  match s.projects.find? build.projectId with
  | none => .error (.unknownProject build.projectId)
  | some project =>
    let id := s.nextJobId
    let row : BuildRow :=
      { id
        projectId := build.projectId
        namespaceId := project.namespaceId
        status := .pending
        tags := build.tags
        refProtected := build.refProtected
        queuedAt := some build.queuedAt
        runnerId := none
        startedAt := none }
    .ok (id.next?.map fun nextJobId ↦
      (id, { s with nextJobId, builds := s.builds.insert id row }.sync id))

/-- Moves a build to another status; who ran it and since when stays. -/
def setStatus (s : Store) (job : JobId) (status : BuildStatus) : Except QueueError Store :=
  match s.builds.find? job with
  | none => .error (.unknownBuild job)
  | some row => .ok ({ s with builds := s.builds.insert job { row with status } }.sync job)

def setProjectionAvailable (s : Store) (available : Bool) : Store :=
  { s with projectionAvailable := available }

/-- Takes a build for a runner if it is still pending. -/
def tryClaim (s : Store) (job : JobId) (runner : RunnerId) (now : Instant) :
    Option Assignment × Store :=
  match s.builds.find? job with
  | none => (none, s)
  | some row =>
    if row.status = .pending then
      let row := { row with status := .running, runnerId := some runner, startedAt := some now }
      (some ⟨job, runner, now⟩, { s with builds := s.builds.insert job row }.sync job)
    else (none, s)

end Store

end BuildQueue
