import BuildQueue.Proofs.Store.Effect

/-!
# Sound stores

A store is sound if records stand under their own ids, builds belong to known projects and carry the
instant they were queued at, and the projection holds for each build what its row and the current
record of its project say. The empty store is sound, and every operation keeps a store sound,
whatever came before it.
-/

namespace BuildQueue.Store

structure Sound (s : Store) : Prop where
  project_id : ∀ id record, s.projects.find? id = some record → record.id = id
  build_id : ∀ job row, s.builds.find? job = some row → row.id = job
  build_queuedAt : ∀ job row, s.builds.find? job = some row → row.queuedAt.isSome
  build_project : ∀ job row, s.builds.find? job = some row →
    (s.projects.find? row.projectId).isSome
  /-- The projection is exact: no row is missing, stale or left over. -/
  pending_eq : ∀ job, s.pending.find? job = s.projected? job

variable {s : Store}

theorem sound_empty : empty.Sound where
  project_id id record h := by simp [empty] at h
  build_id job row h := by simp [empty] at h
  build_queuedAt job row h := by simp [empty] at h
  build_project job row h := by simp [empty] at h
  pending_eq job := by simp [empty, projected?]

namespace Sound

/-- Namespaces, the next id and whether the projection can be reached play no part. -/
theorem of_eq {t : Store} (h : s.Sound) (hprojects : t.projects = s.projects)
    (hbuilds : t.builds = s.builds) (hpending : t.pending = s.pending) : t.Sound where
  project_id := by rw [hprojects]; exact h.project_id
  build_id := by rw [hbuilds]; exact h.build_id
  build_queuedAt := by rw [hbuilds]; exact h.build_queuedAt
  build_project := by rw [hbuilds, hprojects]; exact h.build_project
  pending_eq job := by
    rw [hpending, h.pending_eq]
    exact projected?_congr hbuilds.symm hprojects.symm job

/-- A row may be written under its own id for a known project. -/
theorem writeRow (h : s.Sound) {job : JobId} {row : BuildRow} (hid : row.id = job)
    (hqueued : row.queuedAt.isSome) (hproject : (s.projects.find? row.projectId).isSome) :
    (s.writeRow job row).Sound := by
  obtain ⟨pending, hwrite⟩ := s.writeRow_frame job row
  have hbuilds (other : JobId) := s.find?_builds_writeRow job other row
  have hprojects : (s.writeRow job row).projects = s.projects := by rw [hwrite]
  constructor
  · rw [hprojects]
    exact h.project_id
  · intro other found hfound
    rw [hbuilds] at hfound
    split at hfound
    next heq => rw [← Option.some.inj hfound, hid, heq]
    next => exact h.build_id other found hfound
  · intro other found hfound
    rw [hbuilds] at hfound
    split at hfound
    next => rw [← Option.some.inj hfound]; exact hqueued
    next => exact h.build_queuedAt other found hfound
  · intro other found hfound
    rw [hbuilds] at hfound
    rw [hprojects]
    split at hfound
    next => rw [← Option.some.inj hfound]; exact hproject
    next => exact h.build_project other found hfound
  · intro other
    rw [find?_pending_writeRow]
    split
    next heq => rw [heq]
    next hne =>
      -- Another build keeps its row of the table, so its row of the projection is still right.
      rw [h.pending_eq, projected?, projected?, hbuilds, if_neg hne]
      unfold openToInstance
      rw [hprojects]

/-- A row may be replaced by one that differs in its status and its runner. -/
theorem replaceRow (h : s.Sound) {job : JobId} {row row' : BuildRow}
    (hfound : s.builds.find? job = some row) (hid : row'.id = row.id)
    (hproject : row'.projectId = row.projectId) (hqueuedAt : row'.queuedAt = row.queuedAt) :
    (s.writeRow job row').Sound := by
  apply h.writeRow
  · rw [hid]
    exact h.build_id job row hfound
  · rw [hqueuedAt]
    exact h.build_queuedAt job row hfound
  · rw [hproject]
    exact h.build_project job row hfound

theorem putProject (h : s.Sound) (project : ProjectRecord) : (s.putProject project).Sound := by
  obtain ⟨pending, hput, hpending⟩ := s.putProject_frame project
  have hprojects (id : ProjectId) : (s.putProject project).projects.find? id =
      if id = project.id then some project else s.projects.find? id := by
    rw [hput]
    exact Table.find?_insert ..
  have hbuilds : (s.putProject project).builds = s.builds := by rw [hput]
  constructor
  · intro id record hfound
    rw [hprojects] at hfound
    split at hfound
    next heq => rw [← Option.some.inj hfound, heq]
    next => exact h.project_id id record hfound
  · rw [hbuilds]
    exact h.build_id
  · rw [hbuilds]
    exact h.build_queuedAt
  · intro job row hfound
    rw [hbuilds] at hfound
    rw [hprojects]
    split
    next => rfl
    next => exact h.build_project job row hfound
  · intro job
    have hfind : (s.putProject project).pending.find? job = pending.find? job := by rw [hput]
    rw [hfind, hpending]
    split
    next => rfl
    next hnot =>
      -- A row that was left alone belongs to another project, whose record is the old one.
      rw [h.pending_eq, projected?, projected?, hbuilds]
      cases hbuild : (s.builds.find? job).bind BuildRow.queued? with
      | none => rfl
      | some build =>
        have hrow : s.pending.find? job = some ⟨build, s.openToInstance build.projectId⟩ := by
          rw [h.pending_eq, projected?, hbuild]
          rfl
        have hjob : build.jobId = job := by
          obtain ⟨row, hfound, hqueued⟩ := Option.bind_eq_some_iff.1 hbuild
          rw [← (queued?_eq_some_iff.1 hqueued).2.2.1]
          exact h.build_id job row hfound
        have hother : build.projectId ≠ project.id := fun hsame ↦
          hnot ⟨_, Table.mem_values.2 ⟨job, hrow⟩, hsame, hjob⟩
        simp [openToInstance, hprojects, hother]

/-- Whatever an operation does keeps a store sound. -/
theorem effect (h : s.Sound) {op : StoreOperation} {reply : StoreReply} {t : Store}
    (heffect : s.Effect op reply t) : t.Sound := by
  cases heffect with
  | namespaceAdded id parent => exact h.of_eq rfl rfl rfl
  | projectPut project => exact h.putProject project
  | @enqueued build record nextJobId hproject hnext =>
    have hcounted : { s with nextJobId }.Sound := h.of_eq rfl rfl rfl
    exact hcounted.writeRow rfl rfl (Option.isSome_of_mem hproject)
  | overflowed => exact h
  | unknownProject => exact h
  | statusSet status hfound => exact h.replaceRow hfound rfl rfl rfl
  | unknownBuild => exact h
  | availabilitySet available => exact h.of_eq rfl rfl rfl
  | taken runner now hfound => exact h.replaceRow hfound rfl rfl rfl
  | lost => exact h

theorem apply (h : s.Sound) (op : StoreOperation) : (s.apply op).2.Sound :=
  h.effect (s.effect_apply op)

theorem tryClaim (h : s.Sound) (job : JobId) (runner : RunnerId) (now : Instant) :
    (s.tryClaim job runner now).2.Sound := by
  have happly : (s.apply (.tryClaim job runner now)).2.Sound := h.apply _
  rw [apply_tryClaim] at happly
  exact happly

end Sound

/-- Whatever was done to it, a store is sound. -/
theorem sound_after (ops : List StoreOperation) : (after ops).Sound := by
  induction ops using List.reverseRecOn with
  | nil => exact sound_empty
  | append_singleton ops op ih =>
    rw [after_append_singleton]
    exact ih.apply op

end BuildQueue.Store
