import BuildQueue.Proofs.Engine.Oldest

/-!
# More capable runners

A runner is more capable than another one if it reaches at least as far, has at least its tags and
takes untagged and protected builds if the other one does. It may take every build that the other
one may take, also at a later cutoff. As a poll takes the oldest build that its runner may take, the
more capable runner is given one that stands no later in the queue.
-/

namespace BuildQueue

namespace Store

variable {s : Store} {scope scope' : RunnerScope} {runner runner' : Runner}

/-- The second scope reaches at least as far as the first one. -/
inductive Widens (s : Store) : RunnerScope → RunnerScope → Prop
  | everything : Widens s .everything .everything
  | listed {ids ids' : List ProjectId} (h : ∀ id ∈ ids, id ∈ ids') :
    Widens s (.project ids) (.project ids')
  /-- The first group lies in the second one. -/
  | subgroup {root root' : NamespaceId} (h : s.Within root' root) :
    Widens s (.group root) (.group root')
  /-- Every project of the group is listed. -/
  | spelledOut {root : NamespaceId} {ids : List ProjectId}
    (h : ∀ id record, s.projects.find? id = some record → s.Within root record.namespaceId →
      id ∈ ids) :
    Widens s (.group root) (.project ids)

/-- The second runner is active and at least as capable as the first one. -/
structure Outdoes (s : Store) (runner runner' : Runner) : Prop where
  active : runner'.active = true
  tags : ∀ tag, tag ∈ runner.tags → tag ∈ runner'.tags
  untagged : runner.runUntagged = true → runner'.runUntagged = true
  protection : runner.protectedRefAccess = true → runner'.protectedRefAccess = true
  scope : s.Widens runner.scope runner'.scope

theorem Within.trans {root mid id : NamespaceId} (hmid : s.Within root mid) (h : s.Within mid id) :
    s.Within root id := by
  induction h with
  | root _ => exact hmid
  | child hlink _ ih => exact .child hlink ih

theorem Widens.inScope (h : s.Widens scope scope') {project : ProjectId}
    (hscope : s.InScope scope project) : s.InScope scope' project := by
  cases h with
  | everything => exact hscope
  | listed h =>
    obtain ⟨record, hfind, hlisted, haccepts⟩ := hscope
    exact ⟨record, hfind, h project hlisted, haccepts⟩
  | subgroup h =>
    obtain ⟨record, hfind, hwithin, haccepts⟩ := hscope
    exact ⟨record, hfind, h.trans hwithin, haccepts⟩
  | spelledOut h =>
    obtain ⟨record, hfind, hwithin, haccepts⟩ := hscope
    -- A project that is open to its groups is open to runners of its own.
    have hopen : record.acceptsProjectRunners = true := (Bool.and_eq_true_iff.1 haccepts).1
    exact ⟨record, hfind, h project record hfind hwithin, hopen⟩

/-- A tagged build asks for tags and an untagged one for a runner that takes such builds, so both
kinds have to be looked at. -/
theorem Outdoes.mayTake (h : s.Outdoes runner runner') {cutoff cutoff' : Instant}
    (hcutoff : cutoff ≤ cutoff') {row : BuildRow} {queuedAt : Instant}
    (hrow : s.MayTake runner cutoff row queuedAt) : s.MayTake runner' cutoff' row queuedAt :=
  { hrow with
    queued_by := Int.le_trans hrow.queued_by hcutoff
    protection := fun hprotected ↦ h.protection (hrow.protection hprotected)
    tags := hrow.tags.imp (And.imp_right h.untagged)
      (And.imp_right fun htags tag htag ↦ h.tags tag (htags tag htag))
    in_scope := h.scope.inScope hrow.in_scope }

/-- What is handed out is one of the builds offered. -/
theorem mem_of_handOut {clock : Nat → Moment} {n : Nat} {deadline : Tick} {claimant : RunnerId}
    {builds : List QueuedBuild} {a : Assignment}
    (h : (s.handOut clock n deadline claimant builds).1 = .assigned a) :
    ∃ build ∈ builds, build.jobId = a.jobId := by
  cases builds with
  | nil => cases h
  | cons build builds =>
    rw [handOut_cons] at h
    split at h
    next => cases h
    next =>
      cases h
      exact ⟨build, List.mem_cons_self, rfl⟩

end Store

open Store in
/-- A poll that is alone and hands out a build shows which one its runner may take. -/
theorem Engine.mayTake_of_poll (ops : List StoreOperation) (engine : Engine) (runner : Runner)
    (options : PollOptions) (clock : Nat → Moment) (selected : StrategyKind) {a : Assignment}
    (h : ((engine.poll runner options).run (Course.steady clock).handle
      ⟨after ops, selected, 0, 0⟩).1.result = .ok (.assigned a)) :
    (engine.failover = true ∨ selected = .directScan ∨ (after ops).projectionAvailable = true) ∧
      ∃ row queuedAt, (after ops).MayTake runner (engine.cutoffAt options clock) row queuedAt ∧
        row.id = a.jobId := by
  have hsound : (after ops).Sound := sound_after ops
  by_cases hview : engine.failover = true ∨ selected = .directScan ∨
      (after ops).projectionAvailable = true
  · refine ⟨hview, ?_⟩
    have hresult := (Course.steady_poll clock hsound hview runner options).1
    rw [h] at hresult
    have houtcome := (Except.ok.inj hresult).symm
    unfold pollAlone at houtcome
    split at houtcome
    next =>
      obtain ⟨build, hmem, hid⟩ := mem_of_handOut houtcome
      obtain ⟨row, hrow, hqueued⟩ := hsound.mem_eligible.1 hmem
      exact ⟨row, _, hrow, (queued?_eq_some_iff.1 hqueued).2.2.1.trans hid⟩
    next => cases houtcome
  · -- A projection that cannot be reached fails the poll before it claims anything.
    simp only [not_or, Bool.not_eq_true] at hview
    obtain ⟨hfailover, hselected, hreach⟩ := hview
    obtain rfl : selected = .projection := by
      cases selected with
      | directScan => exact absurd rfl hselected
      | projection => rfl
    have hresult := (Course.leads_poll_unserved clock hfailover hreach runner options).1
    rw [h] at hresult
    split at hresult <;> cases hresult

/-- Two polls at the same store, each of them alone, read the same strategy. If the first one hands
out a build, then the second one, whose runner is more capable, whose cutoff is no earlier and which
is in time, hands out a build that stands no later in the queue. -/
theorem Engine.more_capable_fares_no_worse (ops : List StoreOperation) (engine : Engine)
    (runner runner' : Runner) (options options' : PollOptions) (clock clock' : Nat → Moment)
    (selected : StrategyKind) (houtdoes : (Store.after ops).Outdoes runner runner')
    (hcutoff : engine.cutoffAt options clock ≤ engine.cutoffAt options' clock')
    (hintime : ∀ i, (clock' i).tick < engine.deadlineAt options' clock') {a : Assignment}
    (hassigned : ((engine.poll runner options).run (Course.steady clock).handle
      ⟨Store.after ops, selected, 0, 0⟩).1.result = .ok (.assigned a)) :
    let s := Store.after ops
    ∃ a' row row' queuedAt queuedAt',
      ((engine.poll runner' options').run (Course.steady clock').handle
        ⟨s, selected, 0, 0⟩).1.result = .ok (.assigned a') ∧ a'.runnerId = runner'.id ∧
      s.builds.find? a.jobId = some row ∧ row.queuedAt = some queuedAt ∧
      s.builds.find? a'.jobId = some row' ∧ row'.queuedAt = some queuedAt' ∧
      (queuedAt' < queuedAt ∨ queuedAt' = queuedAt ∧ a'.jobId.toInt ≤ a.jobId.toInt) := by
  intro s
  have hsound : s.Sound := Store.sound_after ops
  obtain ⟨hview, row, queuedAt, hrow, hid⟩ := mayTake_of_poll ops engine runner options clock
    selected hassigned
  have hrow' : s.MayTake runner' (engine.cutoffAt options' clock') row queuedAt :=
    houtdoes.mayTake hcutoff hrow
  let first := if options'.queuedBefore.isSome then 1 else 2
  obtain ⟨oldest, oldestAt, holdest, hleast, hhand⟩ := (hsound.handOut_eligible runner'
    (engine.cutoffAt options' clock') clock' first (hintime first)).1 ⟨row, queuedAt, hrow'⟩
  have hresult := (Course.steady_poll clock' hsound hview runner' options').1
  have halone : (engine.pollAlone runner' options' clock' s).1 =
      .assigned ⟨oldest.id, runner'.id, (clock' (first + 1)).time⟩ := by
    unfold pollAlone
    rw [if_pos houtdoes.active, hhand]
  rw [halone] at hresult
  refine ⟨_, row, oldest, queuedAt, oldestAt, hresult, rfl, hid ▸ hrow.stored, hrow.queued,
    holdest.stored, holdest.queued, ?_⟩
  rw [← hid]
  rcases hleast row queuedAt hrow' with rfl | hearlier | ⟨hsame, hlower⟩
  · have hsame : oldestAt = queuedAt := Option.some.inj (holdest.queued.symm.trans hrow.queued)
    exact .inr ⟨hsame, Int.le_refl _⟩
  · exact .inl hearlier
  · exact .inr ⟨hsame, Int.le_of_lt hlower⟩

/-- An untagged build of a group, and then a tagged one of a group within it. -/
def Store.nestedGroups : List StoreOperation :=
  [.addNamespace ⟨1⟩ none, .addNamespace ⟨2⟩ (some ⟨1⟩), .putProject (.opened ⟨10⟩ ⟨1⟩),
    .putProject (.opened ⟨20⟩ ⟨2⟩), .enqueue ⟨⟨10⟩, .empty, false, default⟩,
    .enqueue ⟨⟨20⟩, .ofList ["linux"], false, default⟩]

/-- Takes tagged builds of one group. -/
def Runner.taggedOf (group : NamespaceId) : Runner :=
  ⟨⟨8⟩, .group group, .ofList ["linux"], false, false, true⟩

theorem Engine.more_capable_fares_no_worse_nestedGroups :
    let ops := Store.nestedGroups
    let engine : Engine := ⟨true, .ofSeconds 1, .zero⟩
    let options : PollOptions := ⟨none, some default⟩
    let clock : Nat → Moment := fun _ ↦ ⟨0, default⟩
    let runner := Runner.taggedOf ⟨2⟩
    let runner' : Runner := ⟨⟨7⟩, .group ⟨1⟩, .ofList ["linux", "docker"], true, true, true⟩
    let a : Assignment := ⟨⟨2⟩, ⟨8⟩, default⟩
    (Store.after ops).Outdoes runner runner' ∧
      engine.cutoffAt options clock ≤ engine.cutoffAt options clock ∧
      (∀ i, (clock i).tick < engine.deadlineAt options clock) ∧
      ((engine.poll runner options).run (Course.steady clock).handle
        ⟨Store.after ops, .projection, 0, 0⟩).1.result = .ok (.assigned a) ∧
      ∃ a' row row' queuedAt queuedAt',
        ((engine.poll runner' options).run (Course.steady clock).handle
          ⟨Store.after ops, .projection, 0, 0⟩).1.result = .ok (.assigned a') ∧
        a'.runnerId = runner'.id ∧
        (Store.after ops).builds.find? a.jobId = some row ∧ row.queuedAt = some queuedAt ∧
        (Store.after ops).builds.find? a'.jobId = some row' ∧ row'.queuedAt = some queuedAt' ∧
        (queuedAt' < queuedAt ∨ queuedAt' = queuedAt ∧ a'.jobId.toInt ≤ a.jobId.toInt) := by
  intro ops engine options clock runner runner' a
  have houtdoes : (Store.after ops).Outdoes runner runner' := by
    refine ⟨rfl, fun tag htag ↦ ?_, fun _ ↦ rfl, fun _ ↦ rfl,
      .subgroup (Store.mem_descendants.1 (by decide))⟩
    have hsubset : runner.tags.subset runner'.tags = true := by decide
    exact OrderedSet.subset_iff.1 hsubset tag htag
  have hcutoff : engine.cutoffAt options clock ≤ engine.cutoffAt options clock := Int.le_refl _
  have hintime : ∀ i, (clock i).tick < engine.deadlineAt options clock := fun i ↦ by decide
  have hassigned : ((engine.poll runner options).run (Course.steady clock).handle
      ⟨Store.after ops, .projection, 0, 0⟩).1.result = .ok (.assigned a) := by
    decide +kernel
  exact ⟨houtdoes, hcutoff, hintime, hassigned, Engine.more_capable_fares_no_worse ops engine
    runner runner' options options clock clock .projection houtdoes hcutoff hintime hassigned⟩

end BuildQueue
