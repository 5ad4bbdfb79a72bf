import BuildQueue.Proofs.Engine.Alone

/-!
# A poll takes the oldest eligible build

Which builds a runner may take is said here in terms of rows and records alone. They are the
eligible builds of the direct scan, so a poll that is alone and in time takes the one of them that
was queued first, with the lower id first among equals, and changes nothing else.
-/

namespace BuildQueue

theorem Runner.acceptsTags_iff {runner : Runner} {tags : TagSet} :
    runner.acceptsTags tags = true ↔ (tags = .empty ∧ runner.runUntagged = true) ∨
      (tags ≠ .empty ∧ ∀ tag, tag ∈ tags → tag ∈ runner.tags) := by
  unfold Runner.acceptsTags
  by_cases hempty : tags.isEmpty = true
  · rw [if_pos hempty]
    have heq : tags = .empty := OrderedSet.isEmpty_iff.1 hempty
    simp [heq]
  · rw [if_neg hempty, OrderedSet.subset_iff]
    have hne : tags ≠ .empty := fun heq ↦ hempty (OrderedSet.isEmpty_iff.2 heq)
    simp [hne]

namespace Store

/-- The row is that of a pending build, queued by the cutoff, whose project the runner serves, whose
ref it may see and whose tags fit. -/
structure MayTake (s : Store) (runner : Runner) (cutoff : Instant) (row : BuildRow)
    (queuedAt : Instant) : Prop where
  stored : s.builds.find? row.id = some row
  pending : row.status = .pending
  queued : row.queuedAt = some queuedAt
  queued_by : queuedAt ≤ cutoff
  protection : row.refProtected = true → runner.protectedRefAccess = true
  tags : (row.tags = .empty ∧ runner.runUntagged = true) ∨
    (row.tags ≠ .empty ∧ ∀ tag, tag ∈ row.tags → tag ∈ runner.tags)
  in_scope : s.InScope runner.scope row.projectId

variable {s : Store} {runner : Runner} {cutoff : Instant}

theorem Sound.mem_eligible (h : s.Sound) {build : QueuedBuild} :
    build ∈ s.eligible runner cutoff ↔
      ∃ row, s.MayTake runner cutoff row build.queuedAt ∧ row.queued? = some build := by
  have hmem : build ∈ s.eligible runner cutoff ↔
      s.Offers (s.scopeOf runner.scope) cutoff build ∧
        Eligibility.admits ⟨runner, cutoff⟩ build = true := by
    unfold eligible Eligibility.apply
    rw [List.mem_filter, h.mem_scanBuilds]
  have hadmits : Eligibility.admits ⟨runner, cutoff⟩ build = true ↔
      build.queuedAt ≤ cutoff ∧ (build.refProtected = true → runner.protectedRefAccess = true) ∧
        runner.acceptsTags build.tags = true := by
    unfold Eligibility.admits QueuedBuild.queuedBy Runner.acceptsProtection
    cases build.refProtected <;> simp [and_assoc]
  rw [hmem, hadmits, Offers, h.admits_scopeOf, Runner.acceptsTags_iff]
  constructor
  · rintro ⟨⟨hbuild, hcutoff, hscope⟩, -, hprotection, htags⟩
    obtain ⟨row, hfound, hqueued⟩ := Option.bind_eq_some_iff.1 hbuild
    obtain ⟨hpending, hqueuedAt, hid, hproject, -, htagsEq, hprotected⟩ :=
      queued?_eq_some_iff.1 hqueued
    refine ⟨row, ?_, hqueued⟩
    constructor
    · rw [hid]
      exact hfound
    · exact hpending
    · exact hqueuedAt
    · exact hcutoff
    · rw [hprotected]
      exact hprotection
    · rw [htagsEq]
      exact htags
    · rw [hproject]
      exact hscope
  · rintro ⟨row, hrow, hqueued⟩
    obtain ⟨-, -, hid, hproject, -, htagsEq, hprotected⟩ := queued?_eq_some_iff.1 hqueued
    have hbuild : (s.builds.find? build.jobId).bind BuildRow.queued? = some build := by
      rw [← hid, hrow.stored]
      exact hqueued
    rw [← htagsEq, ← hprotected, ← hproject]
    exact ⟨⟨hbuild, hrow.queued_by, hrow.in_scope⟩, hrow.queued_by, hrow.protection, hrow.tags⟩

/-- A row that the runner may take is that of an eligible build. -/
theorem Sound.eligible_of_mayTake (h : s.Sound) {row : BuildRow} {queuedAt : Instant}
    (hrow : s.MayTake runner cutoff row queuedAt) : ∃ build ∈ s.eligible runner cutoff,
      row.queued? = some build ∧ build.jobId = row.id ∧ build.queuedAt = queuedAt := by
  have hqueued : row.queued? = some
      ⟨row.id, row.projectId, row.namespaceId, row.tags, row.refProtected, queuedAt⟩ := by
    rw [queued?_eq_some_iff]
    exact ⟨hrow.pending, hrow.queued, rfl, rfl, rfl, rfl, rfl⟩
  exact ⟨_, h.mem_eligible.2 ⟨row, hrow, hqueued⟩, hqueued, rfl, rfl⟩

/-- Handing out the first eligible build hands out the oldest one and changes nothing else; with no
eligible build nothing is handed out or changed. -/
theorem Sound.handOut_eligible (h : s.Sound) (runner : Runner) (cutoff : Instant)
    (clock : Nat → Moment) (n : Nat) {deadline : Tick} (hintime : (clock n).tick < deadline) :
    ((∃ row queuedAt, s.MayTake runner cutoff row queuedAt) →
      ∃ row queuedAt, s.MayTake runner cutoff row queuedAt ∧
        (∀ other otherAt, s.MayTake runner cutoff other otherAt →
          other = row ∨ queuedAt < otherAt ∨ queuedAt = otherAt ∧ row.id.toInt < other.id.toInt) ∧
        s.handOut clock n deadline runner.id (s.eligible runner cutoff) =
          (.assigned ⟨row.id, runner.id, (clock (n + 1)).time⟩,
            { s with
              builds := s.builds.insert row.id (row.taken runner.id (clock (n + 1)).time)
              pending := s.pending.erase row.id })) ∧
    ((¬ ∃ row queuedAt, s.MayTake runner cutoff row queuedAt) →
      s.handOut clock n deadline runner.id (s.eligible runner cutoff) = (.empty, s)) := by
  have horder : (s.eligible runner cutoff).Pairwise QueuedBuild.Before :=
    (h.scanBuilds_pairwise _ _).filter _
  cases hbuilds : s.eligible runner cutoff with
  | nil =>
    refine ⟨?_, fun _ ↦ rfl⟩
    rintro ⟨row, queuedAt, hrow⟩
    obtain ⟨build, hmem, -⟩ := h.eligible_of_mayTake hrow
    rw [hbuilds] at hmem
    exact absurd hmem List.not_mem_nil
  | cons build builds =>
    have hmem : build ∈ s.eligible runner cutoff := by
      rw [hbuilds]
      exact List.mem_cons_self
    obtain ⟨row, hrow, hqueued⟩ := h.mem_eligible.1 hmem
    have hid : row.id = build.jobId := (queued?_eq_some_iff.1 hqueued).2.2.1
    refine ⟨fun _ ↦ ⟨row, build.queuedAt, hrow, ?_, ?_⟩, ?_⟩
    · intro other otherAt hother
      obtain ⟨otherBuild, hotherMem, hotherQueued, hotherId, rfl⟩ := h.eligible_of_mayTake hother
      rw [hbuilds] at hotherMem horder
      rcases List.mem_cons.1 hotherMem with rfl | hlater
      · left
        have hsame : some other = some row := by
          rw [← hother.stored, ← hrow.stored, ← hotherId, hid]
        exact Option.some.inj hsame
      · right
        rw [hid, ← hotherId]
        exact (List.pairwise_cons.1 horder).1 otherBuild hlater
    · rw [handOut_cons, if_neg (Nat.not_le_of_lt hintime), ← hid,
        tryClaim_pending runner.id _ hrow.stored hrow.pending]
      rw [writeRow_of_not_pending (by simp [BuildRow.taken])]
    · intro hnone
      exact absurd ⟨row, build.queuedAt, hrow⟩ hnone

end Store

/-- A poll that is alone at a store and in time takes the build that was queued first, with the
lower id first among equals, of all the builds its runner may take. It changes this one row, which
leaves the projection. A paused runner, or one that may take no build, gets nothing and changes
nothing. -/
theorem Engine.poll_takes_oldest (ops : List StoreOperation) (engine : Engine) (runner : Runner)
    (options : PollOptions) (clock : Nat → Moment) (selected : StrategyKind)
    (hview : engine.failover = true ∨ selected = .directScan ∨
      (Store.after ops).projectionAvailable = true)
    (hintime : ∀ i, (clock i).tick < engine.deadlineAt options clock) :
    let s := Store.after ops
    let cutoff := engine.cutoffAt options clock
    let run := (engine.poll runner options).run (Course.steady clock).handle ⟨s, selected, 0, 0⟩
    (runner.active = true ∧ (∃ row queuedAt, s.MayTake runner cutoff row queuedAt) →
      ∃ row queuedAt i, s.MayTake runner cutoff row queuedAt ∧
        (∀ other otherAt, s.MayTake runner cutoff other otherAt →
          other = row ∨ queuedAt < otherAt ∨ queuedAt = otherAt ∧ row.id.toInt < other.id.toInt) ∧
        run.1.result = .ok (.assigned ⟨row.id, runner.id, (clock i).time⟩) ∧
        run.2.store = { s with
          builds := s.builds.insert row.id (row.taken runner.id (clock i).time)
          pending := s.pending.erase row.id }) ∧
    (¬ (runner.active = true ∧ ∃ row queuedAt, s.MayTake runner cutoff row queuedAt) →
      run.1.result = .ok .empty ∧ run.2.store = s) := by
  intro s cutoff run
  have hsound : s.Sound := Store.sound_after ops
  have hsteady : (Course.steady clock).IsSteady := ⟨fun _ ↦ rfl, rfl⟩
  have hserves : (Course.steady clock).Serves engine s selected :=
    hview.imp_right fun hreach ↦ ⟨hsteady, hreach⟩
  obtain ⟨outcome, hresult, hout, n, hat⟩ : ∃ outcome, run.1.result = .ok outcome ∧
      (Course.steady clock).CameTo selected (engine.pollAlone runner options clock s) outcome
        run.2 := Course.leads_poll _ _ hsound hserves runner options
  rw [hresult, hout, (hat.steady hsteady).1]
  let first := if options.queuedBefore.isSome then 1 else 2
  have halone : engine.pollAlone runner options clock s = if runner.active then
      s.handOut clock first (engine.deadlineAt options clock) runner.id (s.eligible runner cutoff)
    else (.empty, s) := rfl
  obtain ⟨hsome, hnone⟩ := hsound.handOut_eligible runner cutoff clock first (hintime first)
  rw [halone]
  cases hactive : runner.active with
  | false =>
    refine ⟨?_, fun _ ↦ ⟨rfl, rfl⟩⟩
    rintro ⟨hfalse, -⟩
    exact absurd hfalse (by decide)
  | true =>
    rw [if_pos rfl]
    constructor
    · rintro ⟨-, hmay⟩
      obtain ⟨row, queuedAt, hrow, hleast, hhand⟩ := hsome hmay
      rw [hhand]
      exact ⟨row, queuedAt, first + 1, hrow, hleast, rfl, rfl⟩
    · intro hnot
      rw [hnone fun hmay ↦ hnot ⟨rfl, hmay⟩]
      exact ⟨rfl, rfl⟩

/-- Two builds that were queued at the same instant. -/
def Store.twoBuilds : List StoreOperation :=
  [.putProject (.opened ⟨10⟩ ⟨1⟩), .enqueue ⟨⟨10⟩, .empty, false, default⟩,
    .enqueue ⟨⟨10⟩, .empty, false, default⟩]

/-- Takes anything of one project. -/
def Runner.ofProject (project : ProjectId) : Runner :=
  ⟨⟨7⟩, .project [project], .empty, true, true, true⟩

/-- Takes anything of one group. -/
def Runner.ofGroup (group : NamespaceId) : Runner :=
  ⟨⟨7⟩, .group group, .empty, true, true, true⟩

theorem Engine.poll_takes_oldest_twoBuilds :
    let s := Store.after Store.twoBuilds
    let engine : Engine := ⟨false, .ofSeconds 1, .zero⟩
    let options : PollOptions := ⟨none, some default⟩
    let clock : Nat → Moment := fun _ ↦ ⟨0, default⟩
    let runner := Runner.ofProject ⟨10⟩
    let run := (engine.poll runner options).run (Course.steady clock).handle
      ⟨s, .projection, 0, 0⟩
    (engine.failover = true ∨ StrategyKind.projection = .directScan ∨
      s.projectionAvailable = true) ∧
    (∀ i, (clock i).tick < engine.deadlineAt options clock) ∧
    runner.active = true ∧ (∃ row queuedAt, s.MayTake runner default row queuedAt) ∧
    ∃ row queuedAt i, s.MayTake runner default row queuedAt ∧
      (∀ other otherAt, s.MayTake runner default other otherAt →
        other = row ∨ queuedAt < otherAt ∨ queuedAt = otherAt ∧ row.id.toInt < other.id.toInt) ∧
      run.1.result = .ok (.assigned ⟨row.id, runner.id, (clock i).time⟩) ∧
      run.2.store = { s with
        builds := s.builds.insert row.id (row.taken runner.id (clock i).time)
        pending := s.pending.erase row.id } := by
  intro s engine options clock runner run
  have hview : engine.failover = true ∨ StrategyKind.projection = .directScan ∨
      s.projectionAvailable = true := .inr (.inr (by decide))
  have hintime : ∀ i, (clock i).tick < engine.deadlineAt options clock := fun i ↦ by decide
  have hmay : ∃ row queuedAt, s.MayTake runner default row queuedAt :=
    ⟨(NewBuild.mk ⟨10⟩ .empty false default).row ⟨2⟩ ⟨1⟩, default, by decide, rfl, rfl, by decide,
      by decide, .inl ⟨rfl, rfl⟩, .opened ⟨10⟩ ⟨1⟩, by decide, by decide, by decide⟩
  exact ⟨hview, hintime, rfl, hmay, (Engine.poll_takes_oldest Store.twoBuilds engine runner options
    clock .projection hview hintime).1 ⟨rfl, hmay⟩⟩

/-- A build of a group that was never registered, though a namespace below it was. -/
def Store.unregisteredGroup : List StoreOperation :=
  [.addNamespace ⟨2⟩ (some ⟨1⟩), .putProject (.opened ⟨10⟩ ⟨1⟩),
    .enqueue ⟨⟨10⟩, .empty, false, default⟩]

/-- A runner of a group that is not registered gets nothing, not even a build whose project stands
in this very group. -/
theorem Engine.unregistered_group_gets_nothing :
    let s := Store.after Store.unregisteredGroup
    let engine : Engine := ⟨false, .ofSeconds 1, .zero⟩
    let options : PollOptions := ⟨none, some default⟩
    let clock : Nat → Moment := fun _ ↦ ⟨0, default⟩
    let runner := Runner.ofGroup ⟨1⟩
    let run := (engine.poll runner options).run (Course.steady clock).handle
      ⟨s, .directScan, 0, 0⟩
    (∀ i, (clock i).tick < engine.deadlineAt options clock) ∧
    runner.active = true ∧
    (∃ row record, s.builds.find? row.id = some row ∧ row.status = .pending ∧
      row.queuedAt = some default ∧ row.refProtected = false ∧
      row.tags = .empty ∧ runner.runUntagged = true ∧
      s.projects.find? row.projectId = some record ∧
      runner.scope = .group record.namespaceId ∧ record.acceptsGroupRunners = true) ∧
    run.1.result = .ok .empty := by
  intro s engine options clock runner run
  have hintime : ∀ i, (clock i).tick < engine.deadlineAt options clock := fun i ↦ by decide
  refine ⟨hintime, rfl, ?_, by decide +kernel⟩
  exact ⟨(NewBuild.mk ⟨10⟩ .empty false default).row ⟨1⟩ ⟨1⟩, .opened ⟨10⟩ ⟨1⟩, by decide, rfl, rfl,
    rfl, rfl, rfl, by decide, rfl, by decide⟩

end BuildQueue
