import BuildQueue.Proofs.QueueOrder
import BuildQueue.Proofs.Store.Sound
import BuildQueue.Store.Scan

/-!
# The two views of the queue

In a sound store the rows of the projection are the pending builds of the table, in the same order
and with the flag of their current project. Both views therefore sort the same list, whose builds
have different ids, and read the same queue in strict order.
-/

namespace BuildQueue.Store

variable {s : Store}

/-! ## Pending builds -/

/-- The pending builds by id. -/
def pendingBuilds (s : Store) : List QueuedBuild := s.builds.values.filterMap BuildRow.queued?

/-- A build stands in the queue of a scope at a cutoff. -/
def Offers (s : Store) (scope : ProjectScope) (cutoff : Instant) (build : QueuedBuild) : Prop :=
  (s.builds.find? build.jobId).bind BuildRow.queued? = some build ∧ build.queuedAt ≤ cutoff ∧
    scope.admits build.projectId (s.openToInstance build.projectId) = true

theorem Sound.queued_eq_some_iff (h : s.Sound) {job : JobId} {build : QueuedBuild} :
    (s.builds.find? job).bind BuildRow.queued? = some build ↔
      build.jobId = job ∧ (s.builds.find? build.jobId).bind BuildRow.queued? = some build := by
  constructor
  · intro hbuild
    have hjob : build.jobId = job := by
      cases hfound : s.builds.find? job with
      | none => simp [hfound] at hbuild
      | some row =>
        rw [hfound, Option.bind_some, queued?_eq_some_iff] at hbuild
        rw [← hbuild.2.2.1]
        exact h.build_id job row hfound
    exact ⟨hjob, by rw [hjob]; exact hbuild⟩
  · intro hbuild
    rw [← hbuild.1]
    exact hbuild.2

theorem Sound.mem_pendingBuilds (h : s.Sound) {build : QueuedBuild} :
    build ∈ s.pendingBuilds ↔ (s.builds.find? build.jobId).bind BuildRow.queued? = some build := by
  unfold pendingBuilds
  rw [List.mem_filterMap]
  constructor
  · rintro ⟨row, hrow, hqueued⟩
    obtain ⟨job, hfound⟩ := Table.mem_values.1 hrow
    have hbuild : (s.builds.find? job).bind BuildRow.queued? = some build := by
      rw [hfound]
      exact hqueued
    exact (h.queued_eq_some_iff.1 hbuild).2
  · intro hbuild
    obtain ⟨row, hfound, hqueued⟩ := Option.bind_eq_some_iff.1 hbuild
    exact ⟨row, Table.mem_values.2 ⟨_, hfound⟩, hqueued⟩

theorem Sound.pendingBuilds_pairwise (h : s.Sound) :
    s.pendingBuilds.Pairwise fun a b ↦ a.jobId ≠ b.jobId := by
  have hkeys : s.builds.toList.Pairwise fun a b ↦ a.1 ≠ b.1 :=
    List.pairwise_map.1 s.builds.nodup_keys
  have hids : s.builds.values.Pairwise fun a b ↦ a.id ≠ b.id := by
    unfold Table.values
    rw [List.pairwise_map]
    refine hkeys.imp_of_mem fun {a b} ha hb hne ↦ ?_
    have hid : a.2.id = a.1 := h.build_id _ _ ((s.builds.find?_eq_some_iff _ _).2 ha)
    have hid' : b.2.id = b.1 := h.build_id _ _ ((s.builds.find?_eq_some_iff _ _).2 hb)
    rw [hid, hid']
    exact hne
  unfold pendingBuilds
  rw [List.pairwise_filterMap]
  refine hids.imp fun {a b} hne a' ha' b' hb' ↦ ?_
  rw [← (queued?_eq_some_iff.1 ha').2.2.1, ← (queued?_eq_some_iff.1 hb').2.2.1]
  exact hne

/-! ## The projection lists the pending builds -/

theorem Sound.toList_pending (h : s.Sound) :
    s.pending.toList = s.builds.toList.filterMap fun e ↦
      e.2.queued?.map fun build ↦ (e.1, ⟨build, s.openToInstance build.projectId⟩) := by
  apply Table.toList_eq_of_mem_iff
  · unfold Ascending Entries.keys
    rw [List.pairwise_map, List.pairwise_filterMap]
    refine (List.pairwise_map.1 s.builds.ascending).imp fun {a b} hab a' ha' b' hb' ↦ ?_
    obtain ⟨_, _, rfl⟩ := Option.map_eq_some_iff.1 ha'
    obtain ⟨_, _, rfl⟩ := Option.map_eq_some_iff.1 hb'
    exact hab
  · intro job row
    rw [h.pending_eq, projected?, List.mem_filterMap]
    constructor
    · rintro ⟨⟨job', found⟩, hmem, hrow⟩
      obtain ⟨build, hqueued, heq⟩ := Option.map_eq_some_iff.1 hrow
      obtain ⟨rfl, rfl⟩ := Prod.mk.inj heq
      rw [(s.builds.find?_eq_some_iff _ _).2 hmem, Option.bind_some, hqueued]
      rfl
    · intro hrow
      obtain ⟨build, hbuild, rfl⟩ := Option.map_eq_some_iff.1 hrow
      obtain ⟨found, hfound, hqueued⟩ := Option.bind_eq_some_iff.1 hbuild
      refine ⟨(job, found), (s.builds.find?_eq_some_iff _ _).1 hfound, ?_⟩
      rw [hqueued]
      rfl

theorem Sound.values_pending (h : s.Sound) :
    s.pending.values =
      s.pendingBuilds.map fun build ↦ ⟨build, s.openToInstance build.projectId⟩ := by
  unfold Table.values pendingBuilds Table.values
  rw [h.toList_pending, List.map_filterMap, List.filterMap_map, List.map_filterMap]
  apply List.filterMap_congr
  intro e _
  simp only [Option.map_map, Function.comp_apply]
  rfl

/-! ## The queue -/

theorem Sound.mem_scanBuilds (h : s.Sound) {scope : ProjectScope} {cutoff : Instant}
    {build : QueuedBuild} : build ∈ s.scanBuilds scope cutoff ↔ s.Offers scope cutoff build := by
  unfold scanBuilds Offers
  rw [QueuedBuild.mem_sort, List.mem_filter, ← h.mem_pendingBuilds]
  simp [pendingBuilds]

/-- The queue is in strict order. -/
theorem Sound.scanBuilds_pairwise (h : s.Sound) (scope : ProjectScope) (cutoff : Instant) :
    (s.scanBuilds scope cutoff).Pairwise QueuedBuild.Before :=
  QueuedBuild.sort_pairwise (h.pendingBuilds_pairwise.filter _)

/-- No build stands in the queue twice. -/
theorem Sound.nodup_jobIds_scanBuilds (h : s.Sound) (scope : ProjectScope) (cutoff : Instant) :
    ((s.scanBuilds scope cutoff).map (·.jobId)).Nodup := by
  unfold List.Nodup scanBuilds
  rw [List.pairwise_map]
  exact (QueuedBuild.sort_perm _).symm.pairwise (h.pendingBuilds_pairwise.filter _)
    fun hne ↦ hne.symm

/-- The projection shows the very queue that the builds themselves show. -/
theorem Sound.scanPending_eq (h : s.Sound) (scope : ProjectScope) (cutoff : Instant) :
    s.scanPending scope cutoff =
      if s.projectionAvailable then .ok (s.scanBuilds scope cutoff)
      else .error .projectionUnavailable := by
  have hrows : ((s.pending.values.filter fun row ↦ row.build.queuedAt ≤ cutoff &&
        scope.admits row.build.projectId row.openToInstance).map (·.build)) =
      s.pendingBuilds.filter fun build ↦ build.queuedAt ≤ cutoff &&
        scope.admits build.projectId (s.openToInstance build.projectId) := by
    rw [h.values_pending, List.filter_map, List.map_map]
    exact List.map_id _
  unfold scanPending scanBuilds
  rw [← pendingBuilds]
  simp only [hrows]

theorem Sound.scan_eq (h : s.Sound) (strategy : StrategyKind) (scope : ProjectScope)
    (cutoff : Instant) :
    s.scan strategy scope cutoff =
      if strategy = .directScan ∨ s.projectionAvailable = true then .ok (s.scanBuilds scope cutoff)
      else .error .projectionUnavailable := by
  cases strategy with
  | directScan => rfl
  | projection =>
    change s.scanPending scope cutoff = _
    rw [h.scanPending_eq]
    simp

/-- After any operations the projection has one row for each pending build and no others, with the
build as it is queued and the flag of its current project, and both views read the same queue: the
builds that are offered, in strict order and with the same length. -/
theorem views_agree (ops : List StoreOperation) :
    (∀ job, (after ops).pending.contains job = true ↔
      ∃ row, (after ops).builds.find? job = some row ∧ row.status = .pending) ∧
    (∀ job shown, (after ops).pending.find? job = some shown →
      ∃ row record, (after ops).builds.find? job = some row ∧ row.queued? = some shown.build ∧
        (after ops).projects.find? row.projectId = some record ∧
        shown.openToInstance = record.acceptsInstanceRunners) ∧
    ∀ scope cutoff, (after ops).projectionAvailable = true →
      ∃ queue : List QueuedBuild, queue.Pairwise QueuedBuild.Before ∧
        (∀ build, build ∈ queue ↔ (after ops).Offers scope cutoff build) ∧
        ∀ strategy, (after ops).scan strategy scope cutoff = .ok queue ∧
          (after ops).depth strategy scope cutoff = .ok queue.length := by
  have h : (after ops).Sound := sound_after ops
  generalize after ops = s at h
  refine ⟨fun job ↦ ?_, fun job shown hshown ↦ ?_, fun scope cutoff havailable ↦ ?_⟩
  · unfold Table.contains
    rw [h.pending_eq, projected?, Option.isSome_map]
    constructor
    · intro hsome
      obtain ⟨build, hbuild⟩ := Option.isSome_iff_exists.1 hsome
      obtain ⟨row, hfound, hqueued⟩ := Option.bind_eq_some_iff.1 hbuild
      exact ⟨row, hfound, (queued?_eq_some_iff.1 hqueued).1⟩
    · rintro ⟨row, hfound, hpending⟩
      obtain ⟨queuedAt, hqueuedAt⟩ := Option.isSome_iff_exists.1 (h.build_queuedAt job row hfound)
      simp [hfound, BuildRow.queued?, hqueuedAt, hpending]
  · rw [h.pending_eq, projected?] at hshown
    obtain ⟨build, hbuild, rfl⟩ := Option.map_eq_some_iff.1 hshown
    obtain ⟨row, hfound, hqueued⟩ := Option.bind_eq_some_iff.1 hbuild
    obtain ⟨record, hrecord⟩ := Option.isSome_iff_exists.1 (h.build_project job row hfound)
    have hproject : row.projectId = build.projectId := (queued?_eq_some_iff.1 hqueued).2.2.2.1
    refine ⟨row, record, hfound, hqueued, hrecord, ?_⟩
    simp [openToInstance, ← hproject, hrecord]
  · refine ⟨s.scanBuilds scope cutoff, h.scanBuilds_pairwise scope cutoff,
      fun build ↦ h.mem_scanBuilds, fun strategy ↦ ?_⟩
    have hscan : s.scan strategy scope cutoff = .ok (s.scanBuilds scope cutoff) := by
      rw [h.scan_eq, if_pos (.inr havailable)]
    refine ⟨hscan, ?_⟩
    unfold depth
    rw [hscan]
    rfl

/-- A waiting build whose project is closed to instance runners later. -/
def closedProject : List StoreOperation :=
  [.putProject (.opened ⟨1⟩ ⟨1⟩), .enqueue ⟨⟨1⟩, .empty, false, default⟩,
    .putProject { ProjectRecord.opened ⟨1⟩ ⟨1⟩ with sharedRunnersEnabled := false }]

/-- The build is left out of the queue of all projects, and is all the queue of its own one. -/
theorem views_agree_closedProject :
    (∃ shown row record, (after closedProject).pending.find? ⟨1⟩ = some shown ∧
      (after closedProject).builds.find? ⟨1⟩ = some row ∧ row.queued? = some shown.build ∧
      (after closedProject).projects.find? row.projectId = some record ∧
      shown.openToInstance = record.acceptsInstanceRunners) ∧
    (after closedProject).projectionAvailable = true ∧
    ∀ scope jobs, (scope, jobs) ∈ [(.everything, []), (.ofList [⟨1⟩], [⟨1⟩])] →
      ∃ queue : List QueuedBuild, queue.Pairwise QueuedBuild.Before ∧
        (∀ build, build ∈ queue ↔ (after closedProject).Offers scope default build) ∧
        (∀ strategy, (after closedProject).scan strategy scope default = .ok queue ∧
          (after closedProject).depth strategy scope default = .ok queue.length) ∧
        queue.map (·.jobId) = jobs := by
  obtain ⟨-, hrows, hqueues⟩ := views_agree closedProject
  have hsome : ((after closedProject).pending.find? ⟨1⟩).isSome = true := by decide
  have havailable : (after closedProject).projectionAvailable = true := by decide
  obtain ⟨shown, hshown⟩ := Option.isSome_iff_exists.1 hsome
  obtain ⟨row, record, hfacts⟩ := hrows ⟨1⟩ shown hshown
  refine ⟨⟨shown, row, record, hshown, hfacts⟩, havailable, fun scope jobs hscope ↦ ?_⟩
  obtain ⟨queue, hstrict, hmem, hviews⟩ := hqueues scope default havailable
  have hjobs : ((after closedProject).scan .directScan scope default).map (·.map (·.jobId)) =
      .ok jobs := by
    simp only [List.mem_cons, List.not_mem_nil, or_false, Prod.mk.injEq] at hscope
    rcases hscope with ⟨rfl, rfl⟩ | ⟨rfl, rfl⟩ <;> decide +kernel
  rw [(hviews .directScan).1] at hjobs
  exact ⟨queue, hstrict, hmem, hviews, Except.ok.inj hjobs⟩

end BuildQueue.Store
