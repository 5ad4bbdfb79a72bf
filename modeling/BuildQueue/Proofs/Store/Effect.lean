import BuildQueue.Proofs.Containers
import BuildQueue.Store.Operation
import Mathlib.Data.List.Induction

/-!
# What operations do to a store

Each operation is described once, by what it replies and what it leaves. Bringing the projection up
to date touches nothing but the projection; a build is written by putting its row into the table and
bringing the projection up to date at that place; what is lost, refused or broken off leaves the
store as it was.
-/

namespace BuildQueue

/-- The row of a build that a runner has taken. -/
def BuildRow.taken (row : BuildRow) (runner : RunnerId) (now : Instant) : BuildRow :=
  { row with status := .running, runnerId := some runner, startedAt := some now }

/-- The row of a build when it is put into the queue. -/
def NewBuild.row (build : NewBuild) (id : JobId) (namespaceId : NamespaceId) : BuildRow where
  id
  projectId := build.projectId
  namespaceId
  status := .pending
  tags := build.tags
  refProtected := build.refProtected
  queuedAt := some build.queuedAt
  runnerId := none
  startedAt := none

namespace Store

/-- The row that the projection should hold for a build: none unless the build is pending. -/
def projected? (s : Store) (job : JobId) : Option PendingRow :=
  ((s.builds.find? job).bind BuildRow.queued?).map fun build ↦
    ⟨build, s.openToInstance build.projectId⟩

/-- Puts a row into the table and brings the projection up to date there. -/
def writeRow (s : Store) (job : JobId) (row : BuildRow) : Store :=
  { s with builds := s.builds.insert job row }.sync job

variable {s : Store}

/-! ## Rows in the queue -/

theorem queued?_eq_some_iff {row : BuildRow} {build : QueuedBuild} :
    row.queued? = some build ↔ row.status = .pending ∧ row.queuedAt = some build.queuedAt ∧
      row.id = build.jobId ∧ row.projectId = build.projectId ∧
      row.namespaceId = build.namespaceId ∧ row.tags = build.tags ∧
      row.refProtected = build.refProtected := by
  unfold BuildRow.queued?
  cases row.queuedAt <;> by_cases hs : row.status = .pending <;>
    simp [hs, QueuedBuild.ext_iff]
  grind

theorem queued?_of_not_pending {row : BuildRow} (h : row.status ≠ .pending) :
    row.queued? = none := by
  unfold BuildRow.queued?
  cases row.queuedAt <;> simp [h]

theorem projected?_congr {s t : Store} (hb : s.builds = t.builds) (hp : s.projects = t.projects)
    (job : JobId) : s.projected? job = t.projected? job := by
  unfold projected? openToInstance
  rw [hb, hp]

/-! ## Bringing the projection up to date -/

theorem sync_frame (job : JobId) : ∃ pending, s.sync job = { s with pending } := by
  unfold sync
  split
  · exact ⟨_, rfl⟩
  · exact ⟨_, rfl⟩

@[simp] theorem builds_sync (job : JobId) : (s.sync job).builds = s.builds := by
  obtain ⟨pending, h⟩ := s.sync_frame job
  rw [h]

@[simp] theorem projects_sync (job : JobId) : (s.sync job).projects = s.projects := by
  obtain ⟨pending, h⟩ := s.sync_frame job
  rw [h]

theorem find?_pending_sync (job other : JobId) :
    (s.sync job).pending.find? other =
      if other = job then s.projected? job else s.pending.find? other := by
  unfold sync projected?
  split
  next build h => simp [h, Table.find?_insert]
  next h => simp [h, Table.find?_erase]

/-- Rows brought up to date one after the other are all up to date, and no others change. -/
theorem syncAll_frame (rows : List PendingRow) :
    ∃ pending, rows.foldl (fun s row ↦ s.sync row.build.jobId) s = { s with pending } ∧
      ∀ job, pending.find? job =
        if job ∈ rows.map (·.build.jobId) then s.projected? job else s.pending.find? job := by
  induction rows generalizing s with
  | nil => exact ⟨s.pending, rfl, fun job ↦ by simp⟩
  | cons row rows ih =>
    obtain ⟨first, hfirst⟩ := s.sync_frame row.build.jobId
    obtain ⟨pending, hrest, hfind⟩ := ih (s := s.sync row.build.jobId)
    refine ⟨pending, ?_, fun job ↦ ?_⟩
    · rw [List.foldl_cons, hrest, hfirst]
    · have hprojected : (s.sync row.build.jobId).projected? job = s.projected? job :=
        projected?_congr (builds_sync _) (projects_sync _) job
      rw [hfind, hprojected, find?_pending_sync]
      by_cases hmem : job ∈ rows.map (·.build.jobId)
      · simp [hmem]
      · by_cases hrow : job = row.build.jobId <;> simp [hmem, hrow]

/-! ## Writing rows -/

theorem writeRow_frame (job : JobId) (row : BuildRow) : ∃ pending,
    s.writeRow job row = { s with builds := s.builds.insert job row, pending } :=
  sync_frame job

theorem find?_builds_writeRow (job other : JobId) (row : BuildRow) :
    (s.writeRow job row).builds.find? other =
      if other = job then some row else s.builds.find? other := by
  obtain ⟨pending, h⟩ := s.writeRow_frame job row
  rw [h]
  exact Table.find?_insert ..

theorem find?_pending_writeRow (job other : JobId) (row : BuildRow) :
    (s.writeRow job row).pending.find? other =
      if other = job then (s.writeRow job row).projected? job else s.pending.find? other := by
  unfold writeRow
  rw [find?_pending_sync, projected?_congr (builds_sync job) (projects_sync job)]

/-- A row that is not pending leaves the projection, or stays out of it. -/
theorem writeRow_of_not_pending {job : JobId} {row : BuildRow} (h : row.status ≠ .pending) :
    s.writeRow job row =
      { s with builds := s.builds.insert job row, pending := s.pending.erase job } := by
  unfold writeRow sync
  simp [queued?_of_not_pending h]

/-! ## Operations -/

/-- Replacing a project brings exactly the waiting builds of that project up to date. -/
theorem putProject_frame (s : Store) (project : ProjectRecord) : ∃ pending,
    s.putProject project = { s with projects := s.projects.insert project.id project, pending } ∧
    ∀ job, pending.find? job =
      if ∃ row ∈ s.pending.values, row.build.projectId = project.id ∧ row.build.jobId = job then
        (s.putProject project).projected? job
      else s.pending.find? job := by
  obtain ⟨pending, hput, hfind⟩ := syncAll_frame
    (s := { s with projects := s.projects.insert project.id project })
    (s.pending.values.filter fun row ↦ row.build.projectId = project.id)
  change s.putProject project = _ at hput
  refine ⟨pending, hput, fun job ↦ ?_⟩
  rw [hfind, projected?_congr (t := s.putProject project) (by rw [hput]) (by rw [hput])]
  simp [and_assoc]

theorem apply_enqueue_unknown {build : NewBuild} (h : s.projects.find? build.projectId = none) :
    s.apply (.enqueue build) = (.refused (.unknownProject build.projectId), s) := by
  simp [apply, enqueue, h]

theorem apply_enqueue_overflowed {build : NewBuild} {record : ProjectRecord}
    (h : s.projects.find? build.projectId = some record) (hnext : s.nextJobId.next? = none) :
    s.apply (.enqueue build) = (.overflowed, s) := by
  simp [apply, enqueue, h, hnext]

theorem apply_enqueue {build : NewBuild} {record : ProjectRecord} {nextJobId : JobId}
    (h : s.projects.find? build.projectId = some record)
    (hnext : s.nextJobId.next? = some nextJobId) :
    s.apply (.enqueue build) = (.enqueued s.nextJobId,
      { s with nextJobId }.writeRow s.nextJobId (build.row s.nextJobId record.namespaceId)) := by
  simp [apply, enqueue, h, hnext, writeRow, NewBuild.row]

theorem apply_setStatus_unknown {job : JobId} (status : BuildStatus)
    (h : s.builds.find? job = none) :
    s.apply (.setStatus job status) = (.refused (.unknownBuild job), s) := by
  simp [apply, setStatus, h]

theorem apply_setStatus {job : JobId} (status : BuildStatus) {row : BuildRow}
    (h : s.builds.find? job = some row) :
    s.apply (.setStatus job status) = (.done, s.writeRow job { row with status }) := by
  simp [apply, setStatus, h, writeRow]

theorem tryClaim_pending {job : JobId} (runner : RunnerId) (now : Instant) {row : BuildRow}
    (h : s.builds.find? job = some row) (hpending : row.status = .pending) :
    s.tryClaim job runner now =
      (some ⟨job, runner, now⟩, s.writeRow job (row.taken runner now)) := by
  simp [tryClaim, h, hpending, writeRow, BuildRow.taken]

theorem tryClaim_lost {job : JobId} (runner : RunnerId) (now : Instant)
    (h : ∀ row, s.builds.find? job = some row → row.status ≠ .pending) :
    s.tryClaim job runner now = (none, s) := by
  unfold tryClaim
  split
  next => rfl
  next row hfound => simp [h row hfound]

/-- A claim either takes a pending build or finds none and changes nothing. -/
theorem tryClaim_cases (s : Store) (job : JobId) (runner : RunnerId) (now : Instant) :
    (∃ row, s.builds.find? job = some row ∧ row.status = .pending ∧
      s.tryClaim job runner now =
        (some ⟨job, runner, now⟩, s.writeRow job (row.taken runner now))) ∨
    ((∀ row, s.builds.find? job = some row → row.status ≠ .pending) ∧
      s.tryClaim job runner now = (none, s)) := by
  by_cases h : ∃ row, s.builds.find? job = some row ∧ row.status = .pending
  · obtain ⟨row, hfound, hpending⟩ := h
    exact .inl ⟨row, hfound, hpending, tryClaim_pending runner now hfound hpending⟩
  · have hnot : ∀ row, s.builds.find? job = some row → row.status ≠ .pending :=
      fun row hfound hpending ↦ h ⟨row, hfound, hpending⟩
    exact .inr ⟨hnot, tryClaim_lost runner now hnot⟩

theorem apply_tryClaim (s : Store) (job : JobId) (runner : RunnerId) (now : Instant) :
    s.apply (.tryClaim job runner now) =
      (((s.tryClaim job runner now).1.map StoreReply.assigned).getD .lost,
        (s.tryClaim job runner now).2) := by
  rcases s.tryClaim_cases job runner now with ⟨row, -, -, h⟩ | ⟨-, h⟩
  · simp [apply, h]
  · simp [apply, h]

/-- What an operation may reply and leave. -/
inductive Effect (s : Store) : StoreOperation → StoreReply → Store → Prop
  | namespaceAdded (id : NamespaceId) (parent : Option NamespaceId) :
    Effect s (.addNamespace id parent) .done (s.addNamespace id parent)
  | projectPut (project : ProjectRecord) :
    Effect s (.putProject project) .done (s.putProject project)
  | enqueued {build : NewBuild} {record : ProjectRecord} {nextJobId : JobId}
    (h : s.projects.find? build.projectId = some record)
    (hnext : s.nextJobId.next? = some nextJobId) :
    Effect s (.enqueue build) (.enqueued s.nextJobId)
      ({ s with nextJobId }.writeRow s.nextJobId (build.row s.nextJobId record.namespaceId))
  | overflowed {build : NewBuild} {record : ProjectRecord}
    (h : s.projects.find? build.projectId = some record) (hnext : s.nextJobId.next? = none) :
    Effect s (.enqueue build) .overflowed s
  | unknownProject {build : NewBuild} (h : s.projects.find? build.projectId = none) :
    Effect s (.enqueue build) (.refused (.unknownProject build.projectId)) s
  | statusSet {job : JobId} {row : BuildRow} (status : BuildStatus)
    (h : s.builds.find? job = some row) :
    Effect s (.setStatus job status) .done (s.writeRow job { row with status })
  | unknownBuild {job : JobId} (status : BuildStatus) (h : s.builds.find? job = none) :
    Effect s (.setStatus job status) (.refused (.unknownBuild job)) s
  | availabilitySet (available : Bool) :
    Effect s (.setProjectionAvailable available) .done (s.setProjectionAvailable available)
  | taken {job : JobId} {row : BuildRow} (runner : RunnerId) (now : Instant)
    (h : s.builds.find? job = some row) (hpending : row.status = .pending) :
    Effect s (.tryClaim job runner now) (.assigned ⟨job, runner, now⟩)
      (s.writeRow job (row.taken runner now))
  | lost {job : JobId} (runner : RunnerId) (now : Instant)
    (h : ∀ row, s.builds.find? job = some row → row.status ≠ .pending) :
    Effect s (.tryClaim job runner now) .lost s

theorem effect_apply (s : Store) (op : StoreOperation) :
    s.Effect op (s.apply op).1 (s.apply op).2 := by
  cases op with
  | addNamespace id parent => exact .namespaceAdded id parent
  | putProject project => exact .projectPut project
  | enqueue build =>
    cases h : s.projects.find? build.projectId with
    | none =>
      rw [apply_enqueue_unknown h]
      exact .unknownProject h
    | some record =>
      cases hnext : s.nextJobId.next? with
      | none =>
        rw [apply_enqueue_overflowed h hnext]
        exact .overflowed h hnext
      | some nextJobId =>
        rw [apply_enqueue h hnext]
        exact .enqueued h hnext
  | setStatus job status =>
    cases h : s.builds.find? job with
    | none =>
      rw [apply_setStatus_unknown status h]
      exact .unknownBuild status h
    | some row =>
      rw [apply_setStatus status h]
      exact .statusSet status h
  | setProjectionAvailable available => exact .availabilitySet available
  | tryClaim job runner now =>
    rw [apply_tryClaim]
    rcases s.tryClaim_cases job runner now with ⟨row, hfound, hpending, h⟩ | ⟨hnot, h⟩
    · rw [h]
      exact .taken runner now hfound hpending
    · rw [h]
      exact .lost runner now hnot

/-! ## The projection within reach or out of it -/

theorem sync_setProjectionAvailable (s : Store) (available : Bool) (job : JobId) :
    (s.setProjectionAvailable available).sync job =
      (s.sync job).setProjectionAvailable available := by
  unfold sync
  rw [show (s.setProjectionAvailable available).builds = s.builds from rfl]
  cases (s.builds.find? job).bind BuildRow.queued? <;> rfl

theorem syncAll_setProjectionAvailable (s : Store) (available : Bool) (rows : List PendingRow) :
    rows.foldl (fun s row ↦ s.sync row.build.jobId) (s.setProjectionAvailable available) =
      (rows.foldl (fun s row ↦ s.sync row.build.jobId) s).setProjectionAvailable available := by
  induction rows generalizing s with
  | nil => rfl
  | cons row rows ih =>
    rw [List.foldl_cons, List.foldl_cons, sync_setProjectionAvailable, ih]

theorem writeRow_setProjectionAvailable (s : Store) (available : Bool) (job : JobId)
    (row : BuildRow) : (s.setProjectionAvailable available).writeRow job row =
      (s.writeRow job row).setProjectionAvailable available :=
  sync_setProjectionAvailable { s with builds := s.builds.insert job row } available job

theorem tryClaim_setProjectionAvailable (s : Store) (available : Bool) (job : JobId)
    (runner : RunnerId) (now : Instant) :
    (s.setProjectionAvailable available).tryClaim job runner now =
      ((s.tryClaim job runner now).1,
        (s.tryClaim job runner now).2.setProjectionAvailable available) := by
  rcases s.tryClaim_cases job runner now with ⟨row, hfound, hpending, h⟩ | ⟨hnot, h⟩
  · rw [h, ← writeRow_setProjectionAvailable]
    exact tryClaim_pending runner now hfound hpending
  · rw [h]
    exact tryClaim_lost runner now hnot

/-- No write looks at whether the projection is within reach. -/
theorem apply_setProjectionAvailable (s : Store) (available : Bool) {op : StoreOperation}
    (h : ∀ a, op ≠ .setProjectionAvailable a) :
    (s.setProjectionAvailable available).apply op =
      ((s.apply op).1, (s.apply op).2.setProjectionAvailable available) := by
  cases op with
  | addNamespace id parent => rfl
  | putProject project =>
    exact congrArg (Prod.mk StoreReply.done) (syncAll_setProjectionAvailable
      { s with projects := s.projects.insert project.id project } available _)
  | enqueue build =>
    cases hproject : s.projects.find? build.projectId with
    | none =>
      rw [apply_enqueue_unknown hproject]
      exact apply_enqueue_unknown hproject
    | some record =>
      cases hnext : s.nextJobId.next? with
      | none =>
        rw [apply_enqueue_overflowed hproject hnext]
        exact apply_enqueue_overflowed hproject hnext
      | some nextJobId =>
        rw [apply_enqueue hproject hnext, ← writeRow_setProjectionAvailable]
        exact apply_enqueue hproject hnext
  | setStatus job status =>
    cases hbuild : s.builds.find? job with
    | none =>
      rw [apply_setStatus_unknown status hbuild]
      exact apply_setStatus_unknown status hbuild
    | some row =>
      rw [apply_setStatus status hbuild, ← writeRow_setProjectionAvailable]
      exact apply_setStatus status hbuild
  | setProjectionAvailable a => exact absurd rfl (h a)
  | tryClaim job runner now =>
    rw [apply_tryClaim, apply_tryClaim, tryClaim_setProjectionAvailable]

/-! ## Histories -/

/-- The store after some operations, starting with nothing. -/
def after (ops : List StoreOperation) : Store := ops.foldl (fun s op ↦ (s.apply op).2) empty

theorem after_append_singleton (ops : List StoreOperation) (op : StoreOperation) :
    after (ops ++ [op]) = ((after ops).apply op).2 := by
  simp [after]

end Store

end BuildQueue
