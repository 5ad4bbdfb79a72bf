import BuildQueue.Proofs.Engine.Oldest

/-!
# Polls see and touch only what their runner is about

The scope of a runner is about some projects: the listed ones, or those in a group. Two stores that
agree on these projects and their builds give the runner the same builds to choose from, however
much they differ in everything else. So a poll comes to the same at both, writes the same to both,
and writes nothing else to either.
-/

namespace BuildQueue

namespace Store

/-- The scope of a runner is about this project, whatever kinds of runner the project accepts. -/
def Owns (s : Store) : RunnerScope → ProjectId → Prop
  | .everything, _ => True
  | .group root, project =>
    ∃ record, s.projects.find? project = some record ∧ s.Within root record.namespaceId
  | .project ids, project => project ∈ ids

/-- The two stores agree on what a scope is about: on the namespaces of its group, on the records of
its projects and on the builds of these. -/
structure AgreeFor (s t : Store) (scope : RunnerScope) : Prop where
  namespaces : ∀ root, scope = .group root → ∀ id, s.Within root id ↔ t.Within root id
  projects : ∀ project, s.Owns scope project ∨ t.Owns scope project →
    s.projects.find? project = t.projects.find? project
  builds : ∀ job row, s.Owns scope row.projectId →
    (s.builds.find? job = some row ↔ t.builds.find? job = some row)

/-- The later store holds of every other project exactly what the earlier one held. -/
structure KeepsOutside (s t : Store) (scope : RunnerScope) : Prop where
  namespaces : t.namespaces = s.namespaces
  projects : t.projects = s.projects
  builds : ∀ job row, ¬ s.Owns scope row.projectId →
    (t.builds.find? job = some row ↔ s.builds.find? job = some row)
  pending : ∀ job row, ¬ s.Owns scope row.build.projectId →
    (t.pending.find? job = some row ↔ s.pending.find? job = some row)

variable {s t : Store} {scope : RunnerScope} {runner : Runner} {cutoff : Instant}

theorem within_congr (h : t.namespaces = s.namespaces) (root id : NamespaceId) :
    t.Within root id ↔ s.Within root id := by
  rw [← mem_descendants, ← mem_descendants]
  unfold descendants
  rw [h]

theorem owns_congr (hnamespaces : t.namespaces = s.namespaces) (hprojects : t.projects = s.projects)
    (scope : RunnerScope) (project : ProjectId) : t.Owns scope project ↔ s.Owns scope project := by
  cases scope with
  | everything => exact Iff.rfl
  | group root =>
    unfold Owns
    rw [hprojects]
    simp only [within_congr hnamespaces]
  | project ids => exact Iff.rfl

theorem InScope.owns {project : ProjectId} (h : s.InScope scope project) :
    s.Owns scope project := by
  obtain ⟨record, hfound, hscope⟩ := h
  cases scope with
  | everything => trivial
  | group root => exact ⟨record, hfound, hscope.1⟩
  | project ids => exact hscope.1

namespace AgreeFor

theorem owns_iff (h : s.AgreeFor t scope) (project : ProjectId) :
    s.Owns scope project ↔ t.Owns scope project := by
  cases scope with
  | everything => exact Iff.rfl
  | group root =>
    constructor
    · rintro ⟨record, hfound, hwithin⟩
      have hsame := h.projects project (.inl ⟨record, hfound, hwithin⟩)
      exact ⟨record, hsame ▸ hfound, (h.namespaces root rfl _).1 hwithin⟩
    · rintro ⟨record, hfound, hwithin⟩
      have hsame := h.projects project (.inr ⟨record, hfound, hwithin⟩)
      exact ⟨record, hsame ▸ hfound, (h.namespaces root rfl _).2 hwithin⟩
  | project ids => exact Iff.rfl

theorem symm (h : s.AgreeFor t scope) : t.AgreeFor s scope where
  namespaces root hroot id := (h.namespaces root hroot id).symm
  projects project howns := (h.projects project howns.symm).symm
  builds job row howns := (h.builds job row ((h.owns_iff _).2 howns)).symm

/-! ## The builds to choose from -/

theorem inScope (h : s.AgreeFor t scope) {project : ProjectId} (hscope : s.InScope scope project) :
    t.InScope scope project := by
  have hsame := h.projects project (.inl hscope.owns)
  obtain ⟨record, hfound, hscope⟩ := hscope
  refine ⟨record, hsame ▸ hfound, ?_⟩
  cases scope with
  | everything => exact hscope
  | group root => exact ⟨(h.namespaces root rfl _).1 hscope.1, hscope.2⟩
  | project ids => exact hscope

theorem mayTake (h : s.AgreeFor t runner.scope) {row : BuildRow} {queuedAt : Instant}
    (hrow : s.MayTake runner cutoff row queuedAt) : t.MayTake runner cutoff row queuedAt :=
  { hrow with
    stored := (h.builds row.id row hrow.in_scope.owns).1 hrow.stored
    in_scope := h.inScope hrow.in_scope }

theorem scopeOf_eq (h : s.AgreeFor t scope) (hs : s.Sound) (ht : t.Sound) :
    s.scopeOf scope = t.scopeOf scope :=
  hs.scopeOf_eq ht fun _ ↦ ⟨h.inScope, h.symm.inScope⟩

/-- Leaving out the builds of others and putting the rest in order comes to the same at both. -/
theorem eligible_eq (h : s.AgreeFor t runner.scope) (hs : s.Sound) (ht : t.Sound)
    (cutoff : Instant) : s.eligible runner cutoff = t.eligible runner cutoff := by
  have horder (u : Store) (hu : u.Sound) :
      (u.eligible runner cutoff).Pairwise QueuedBuild.Before :=
    (hu.scanBuilds_pairwise _ _).filter _
  apply QueuedBuild.eq_of_mem_iff (horder s hs) (horder t ht)
  intro build
  rw [hs.mem_eligible, ht.mem_eligible]
  constructor
  · rintro ⟨row, hrow, hqueued⟩
    exact ⟨row, h.mayTake hrow, hqueued⟩
  · rintro ⟨row, hrow, hqueued⟩
    exact ⟨row, h.symm.mayTake hrow, hqueued⟩

/-! ## What is written -/

/-- The same row may be written to both. -/
theorem writeRow (h : s.AgreeFor t scope) (job : JobId) (row : BuildRow) :
    (s.writeRow job row).AgreeFor (t.writeRow job row) scope := by
  have hsame (u : Store) : (u.writeRow job row).namespaces = u.namespaces ∧
      (u.writeRow job row).projects = u.projects := by
    obtain ⟨pending, hwrite⟩ := u.writeRow_frame job row
    rw [hwrite]
    exact ⟨rfl, rfl⟩
  have howns (u : Store) (project : ProjectId) :
      (u.writeRow job row).Owns scope project ↔ u.Owns scope project :=
    owns_congr (hsame u).1 (hsame u).2 scope project
  constructor
  · intro root hroot id
    rw [within_congr (hsame s).1, within_congr (hsame t).1]
    exact h.namespaces root hroot id
  · intro project hproject
    rw [(hsame s).2, (hsame t).2]
    rw [howns, howns] at hproject
    exact h.projects project hproject
  · intro other found hproject
    rw [howns] at hproject
    rw [find?_builds_writeRow, find?_builds_writeRow]
    split
    next => exact Iff.rfl
    next => exact h.builds other found hproject

end AgreeFor

theorem KeepsOutside.refl (s : Store) (scope : RunnerScope) : s.KeepsOutside s scope :=
  ⟨rfl, rfl, fun _ _ _ ↦ Iff.rfl, fun _ _ _ ↦ Iff.rfl⟩

/-- A row of the projection is about the project of its build. -/
theorem Sound.projectId_of_pending (h : s.Sound) {job : JobId} {shown : PendingRow}
    {row : BuildRow} (hshown : s.pending.find? job = some shown)
    (hfound : s.builds.find? job = some row) : shown.build.projectId = row.projectId := by
  rw [h.pending_eq, projected?, hfound] at hshown
  obtain ⟨build, hqueued, rfl⟩ := Option.map_eq_some_iff.1 hshown
  exact (queued?_eq_some_iff.1 hqueued).2.2.2.1.symm

/-- A build of a project that a runner's scope is about may be taken. -/
theorem Sound.keepsOutside_taken (h : s.Sound) {job : JobId} {row : BuildRow}
    (hfound : s.builds.find? job = some row) (howns : s.Owns scope row.projectId)
    (runner : RunnerId) (now : Instant) :
    s.KeepsOutside (s.writeRow job (row.taken runner now)) scope := by
  have hnot : (row.taken runner now).status ≠ .pending := by simp [BuildRow.taken]
  rw [writeRow_of_not_pending hnot]
  refine ⟨rfl, rfl, fun other old hother ↦ ?_, fun other old hother ↦ ?_⟩
  · change (s.builds.insert job _).find? other = _ ↔ _
    rw [Table.find?_insert]
    split
    next heq =>
      -- The row that is replaced is not one of another project, and neither is the new one.
      rw [heq, hfound, Option.some.injEq, Option.some.injEq]
      constructor
      · rintro rfl
        exact absurd howns hother
      · rintro rfl
        exact absurd howns hother
    next => exact Iff.rfl
  · change (s.pending.erase job).find? other = _ ↔ _
    rw [Table.find?_erase]
    split
    next heq =>
      constructor
      · intro hnone
        exact absurd hnone (by simp)
      · intro hshown
        rw [heq] at hshown
        rw [h.projectId_of_pending hshown hfound] at hother
        exact absurd howns hother
    next => exact Iff.rfl

/-- Handing out the first build that the runner may take hands out the same at both stores, leaves
them in agreement and writes nothing else. -/
theorem AgreeFor.handOut_eligible (h : s.AgreeFor t runner.scope) (hs : s.Sound) (ht : t.Sound)
    (clock : Nat → Moment) (n : Nat) (deadline : Tick) (cutoff : Instant) :
    let first := s.handOut clock n deadline runner.id (s.eligible runner cutoff)
    let second := t.handOut clock n deadline runner.id (t.eligible runner cutoff)
    first.1 = second.1 ∧ first.2.AgreeFor second.2 runner.scope ∧
      s.KeepsOutside first.2 runner.scope ∧ t.KeepsOutside second.2 runner.scope := by
  intro first second
  have hsame : t.eligible runner cutoff = s.eligible runner cutoff :=
    (h.eligible_eq hs ht cutoff).symm
  have hnothing : s.AgreeFor t runner.scope ∧ s.KeepsOutside s runner.scope ∧
      t.KeepsOutside t runner.scope := ⟨h, .refl s _, .refl t _⟩
  unfold first second
  rw [hsame]
  cases hbuilds : s.eligible runner cutoff with
  | nil => exact ⟨rfl, hnothing⟩
  | cons build builds =>
    rw [handOut_cons, handOut_cons]
    split
    next => exact ⟨rfl, hnothing⟩
    next =>
      obtain ⟨row, hrow, hqueued⟩ :=
        hs.mem_eligible.1 (hbuilds ▸ List.mem_cons_self : build ∈ s.eligible runner cutoff)
      have hid : row.id = build.jobId := (queued?_eq_some_iff.1 hqueued).2.2.1
      have hrow' : t.MayTake runner cutoff row build.queuedAt := h.mayTake hrow
      rw [← hid, tryClaim_pending runner.id _ hrow.stored hrow.pending,
        tryClaim_pending runner.id _ hrow'.stored hrow'.pending]
      exact ⟨rfl, h.writeRow _ _, hs.keepsOutside_taken hrow.stored hrow.in_scope.owns _ _,
        ht.keepsOutside_taken hrow'.stored hrow'.in_scope.owns _ _⟩

end Store

/-- Two stores that agree on what a runner's scope is about, and of which both or neither have the
projection within reach, come to the same poll of that runner, agree again after it, and keep
everything that is not of these projects as it was, however much they differ there. -/
theorem Engine.poll_isolated (ops ops' : List StoreOperation) (engine : Engine) (runner : Runner)
    (options : PollOptions) (clock : Nat → Moment) (selected : StrategyKind)
    (hagree : (Store.after ops).AgreeFor (Store.after ops') runner.scope)
    (hreach : (Store.after ops).projectionAvailable = (Store.after ops').projectionAvailable) :
    let s := Store.after ops
    let t := Store.after ops'
    let run (s : Store) :=
      (engine.poll runner options).run (Course.steady clock).handle ⟨s, selected, 0, 0⟩
    (run s).1.result = (run t).1.result ∧
      (run s).2.store.AgreeFor (run t).2.store runner.scope ∧
      s.KeepsOutside (run s).2.store runner.scope ∧
      t.KeepsOutside (run t).2.store runner.scope := by
  intro s t run
  have hs : s.Sound := Store.sound_after ops
  have ht : t.Sound := Store.sound_after ops'
  by_cases hview : engine.failover = true ∨ selected = .directScan ∨ s.projectionAvailable = true
  · have hview' : engine.failover = true ∨ selected = .directScan ∨
        t.projectionAvailable = true := by
      rw [← hreach]
      exact hview
    obtain ⟨hresult, hstore⟩ := Course.steady_poll clock hs hview runner options
    obtain ⟨hresult', hstore'⟩ := Course.steady_poll clock ht hview' runner options
    have halone : (engine.pollAlone runner options clock s).1 =
          (engine.pollAlone runner options clock t).1 ∧
        (engine.pollAlone runner options clock s).2.AgreeFor
          (engine.pollAlone runner options clock t).2 runner.scope ∧
        s.KeepsOutside (engine.pollAlone runner options clock s).2 runner.scope ∧
        t.KeepsOutside (engine.pollAlone runner options clock t).2 runner.scope := by
      unfold pollAlone
      split
      next => exact hagree.handOut_eligible hs ht clock _ _ _
      next => exact ⟨rfl, hagree, .refl s _, .refl t _⟩
    unfold run
    rw [hresult, hresult', hstore, hstore', halone.1]
    exact ⟨rfl, halone.2⟩
  · simp only [not_or, Bool.not_eq_true] at hview
    obtain ⟨hfailover, hselected, hs'⟩ := hview
    have ht' : t.projectionAvailable = false := hreach.symm.trans hs'
    obtain rfl : selected = .projection := by
      cases selected with
      | directScan => exact absurd rfl hselected
      | projection => rfl
    obtain ⟨hresult, hstore⟩ := Course.leads_poll_unserved clock hfailover hs' runner options
    obtain ⟨hresult', hstore'⟩ := Course.leads_poll_unserved clock hfailover ht' runner options
    unfold run
    rw [hresult, hresult', hstore, hstore', hagree.scopeOf_eq hs ht]
    exact ⟨rfl, hagree, .refl s _, .refl t _⟩

/-- A build of one project, and then perhaps one of another. -/
def Store.neighbours (other : Bool) : List StoreOperation :=
  [.putProject (.opened ⟨10⟩ ⟨1⟩), .putProject (.opened ⟨20⟩ ⟨2⟩),
    .enqueue ⟨⟨10⟩, .empty, false, default⟩] ++
  (if other then [.enqueue ⟨⟨20⟩, .empty, false, default⟩] else [])

theorem Engine.poll_isolated_neighbours :
    let s := Store.after (Store.neighbours false)
    let t := Store.after (Store.neighbours true)
    let engine : Engine := ⟨true, .ofSeconds 1, .zero⟩
    let runner := Runner.ofProject ⟨10⟩
    let run (s : Store) := (engine.poll runner ⟨none, some default⟩).run
      (Course.steady fun _ ↦ ⟨0, default⟩).handle ⟨s, .projection, 0, 0⟩
    s ≠ t ∧ s.AgreeFor t runner.scope ∧ s.projectionAvailable = t.projectionAvailable ∧
      (run s).1.result = .ok (.assigned ⟨⟨1⟩, ⟨7⟩, default⟩) ∧
      (run s).1.result = (run t).1.result ∧
      (run s).2.store.AgreeFor (run t).2.store runner.scope ∧
      s.KeepsOutside (run s).2.store runner.scope ∧
      t.KeepsOutside (run t).2.store runner.scope := by
  intro s t engine runner run
  let foreign := (NewBuild.mk ⟨20⟩ .empty false default).row ⟨2⟩ ⟨2⟩
  have hforeign : foreign.projectId ∉ [(⟨10⟩ : ProjectId)] := by decide
  have hprojects : s.projects = t.projects := by decide
  have hbuilds : t.builds = s.builds.insert ⟨2⟩ foreign := by decide
  have hagree : s.AgreeFor t runner.scope := by
    refine ⟨fun root hroot ↦ absurd hroot (by simp [runner, Runner.ofProject]), ?_, ?_⟩
    · intro project _
      rw [hprojects]
    · intro job row howns
      rw [hbuilds, Table.find?_insert]
      split
      next heq =>
        have hnone : s.builds.find? ⟨2⟩ = none := by decide
        rw [heq, hnone]
        constructor
        · intro hsome
          exact absurd hsome (by simp)
        · intro hsome
          obtain rfl := Option.some.inj hsome
          exact absurd howns hforeign
      next => exact Iff.rfl
  have hreach : s.projectionAvailable = t.projectionAvailable := by decide
  have hresult : (run s).1.result = .ok (.assigned ⟨⟨1⟩, ⟨7⟩, default⟩) := by decide +kernel
  exact ⟨by decide, hagree, hreach, hresult, Engine.poll_isolated (Store.neighbours false)
    (Store.neighbours true) engine runner ⟨none, some default⟩ (fun _ ↦ ⟨0, default⟩) .projection
    hagree hreach⟩

end BuildQueue
