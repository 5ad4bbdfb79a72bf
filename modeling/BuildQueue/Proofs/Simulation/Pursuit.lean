import BuildQueue.Proofs.Engine.Drain

/-!
# Polls in pursuit of the same builds

Several polls take turns at a store in which nothing but claims happens. What is left of the queue
is then always the end of what was left before, and a poll that read a snapshot has all that is left
still before it. So whatever the others do meanwhile, a poll takes the first build that is left at
the time of its claim, and it comes to the end of its snapshot only if nothing is left.
-/

namespace BuildQueue

namespace Store

/-- These builds are left to take, in queue order, and every cutoff from this instant on shows all
of them. -/
structure Remains (s : Store) (now : Instant) (queue : List QueuedBuild) : Prop where
  sound : s.Sound
  available : s.projectionAvailable = true
  scan_eq : ∀ cutoff, now ≤ cutoff → s.scanBuilds .everything cutoff = queue
  pending : ∀ job, s.status? job = some .pending → job ∈ queue.map (·.jobId)

variable {s : Store} {now : Instant} {queue : List QueuedBuild}

namespace Remains

theorem nodup (h : s.Remains now queue) : (queue.map (·.jobId)).Nodup := by
  rw [← h.scan_eq now (Int.le_refl _)]
  exact h.sound.nodup_jobIds_scanBuilds _ _

theorem scan (h : s.Remains now queue) (strategy : StrategyKind) {cutoff : Instant}
    (hcutoff : now ≤ cutoff) : s.scan strategy .everything cutoff = .ok queue := by
  rw [h.sound.scan_eq, if_pos (.inr h.available), h.scan_eq cutoff hcutoff]

/-- A build that is not left is lost to a claim. -/
theorem tryClaim_gone (h : s.Remains now queue) {job : JobId} (hjob : job ∉ queue.map (·.jobId))
    (runner : RunnerId) (time : Instant) : s.tryClaim job runner time = (none, s) := by
  apply tryClaim_lost
  intro row hfound hpending
  refine hjob (h.pending job ?_)
  unfold status?
  rw [hfound, Option.map_some, hpending]

/-- A claim of the first build takes it, and the others are left. -/
theorem tryClaim_first {build : QueuedBuild} (h : s.Remains now (build :: queue))
    (runner : RunnerId) (time : Instant) :
    (s.tryClaim build.jobId runner time).1 = some ⟨build.jobId, runner, time⟩ ∧
      (s.tryClaim build.jobId runner time).2.Remains now queue := by
  have hmem : build ∈ s.scanBuilds .everything now := by
    rw [h.scan_eq now (Int.le_refl _)]
    exact List.mem_cons_self
  obtain ⟨row, hfound, hstatus⟩ := Option.map_eq_some_iff.1 (h.sound.status?_of_mem_scanBuilds hmem)
  have hclaim := tryClaim_pending runner time hfound hstatus
  have hsound := h.sound.tryClaim build.jobId runner time
  rw [hclaim] at hsound ⊢
  refine ⟨rfl, hsound, ?_, fun cutoff hcutoff ↦ ?_, fun job hjob ↦ ?_⟩
  · obtain ⟨pending, hwrite⟩ := s.writeRow_frame build.jobId (row.taken runner time)
    rw [hwrite]
    exact h.available
  · rw [h.sound.scanBuilds_taken hfound, h.scan_eq cutoff hcutoff,
      QueuedBuild.filter_ne_first h.nodup]
  · rw [status?_writeRow] at hjob
    split at hjob
    next => simp [BuildRow.taken] at hjob
    next hne =>
      have hmem := h.pending job hjob
      rw [List.map_cons, List.mem_cons] at hmem
      exact hmem.resolve_left hne

end Remains

end Store

/-! ## Pursuit -/

/-- What a poll has in hand that has come to its end. -/
def Program.held : Program (Report PollOutcome) → List Assignment
  | .done report => report.assignments
  | .ask .. => []

/-- What may have become of the queue while others took turns, if there are any. -/
def MayBecome (alone : Prop) (queue queue' : List QueuedBuild) : Prop :=
  queue' <:+ queue ∧ (alone → queue' = queue)

theorem MayBecome.trans {alone : Prop} {queue queue' queue'' : List QueuedBuild}
    (h : MayBecome alone queue queue') (h' : MayBecome alone queue' queue'') :
    MayBecome alone queue queue'' :=
  ⟨h'.1.trans h.1, fun halone ↦ (h'.2 halone).trans (h.2 halone)⟩

/-- What a poll may come to when these builds are left: an assignment, nothing if nothing is left,
or a timeout. With nobody else there are no conflicts. -/
inductive Report.Concludes (alone : Prop) (queue : List QueuedBuild) : Report PollOutcome → Prop
  | assigned (a : Assignment) {conflicts : UInt64} (h : alone → conflicts = 0) :
    Concludes alone queue
      ⟨.ok (.assigned a), { Metrics.zero with polls := 1, assigned := 1, conflicts }⟩
  | empty (h : queue = []) {conflicts : UInt64} (h : alone → conflicts = 0) :
    Concludes alone queue (.emptyPoll { Metrics.zero with conflicts })
  | timedOut {report : Report PollOutcome} (h : report.metrics.timeouts = 1) :
    Concludes alone queue report

section

variable (selected : StrategyKind) (now : Instant) (alone : Prop)

/-- When these builds are left, the program comes to its end within so many turns, whatever the
others do meanwhile, and each of its turns takes no more from the queue than what it has in hand
then. -/
def Pursues : Nat → List QueuedBuild → Program (Report PollOutcome) → Prop
  | _, queue, .done report => report.Concludes alone queue
  | 0, _, .ask .. => False
  | turns + 1, queue, .ask q next =>
    ∀ (s : Store) (moment : Moment) (queue' : List QueuedBuild), MayBecome alone queue queue' →
      s.Remains now queue' → now ≤ moment.time →
        ∃ taken rest, queue' = taken ++ rest ∧
          (next (s.handle moment selected q).1).held.map (·.jobId) = taken.map (·.jobId) ∧
          (s.handle moment selected q).2.Remains now rest ∧
          Pursues turns rest (next (s.handle moment selected q).1)

variable {selected now alone} {turns : Nat} {queue : List QueuedBuild}

theorem pursues_done {report : Report PollOutcome} :
    Pursues selected now alone turns queue (.done report) ↔ report.Concludes alone queue := by
  cases turns <;> rfl

theorem Report.Concludes.stable {report : Report PollOutcome} {queue' : List QueuedBuild}
    (h : report.Concludes alone queue) (hqueue : MayBecome alone queue queue') :
    report.Concludes alone queue' := by
  cases h with
  | assigned a h => exact .assigned a h
  | empty hnone h =>
    subst hnone
    exact .empty (List.suffix_nil.1 hqueue.1) h
  | timedOut h => exact .timedOut h

/-- Whatever the others take, the pursuit goes on. -/
theorem Pursues.stable {p : Program (Report PollOutcome)} {queue' : List QueuedBuild}
    (h : Pursues selected now alone turns queue p) (hqueue : MayBecome alone queue queue') :
    Pursues selected now alone turns queue' p := by
  cases p with
  | done report => exact pursues_done.2 ((pursues_done.1 h).stable hqueue)
  | ask q next =>
    cases turns with
    | zero => exact h
    | succ turns =>
      intro s moment queue'' hbecome
      exact h s moment queue'' (hqueue.trans hbecome)

theorem Pursues.mono {p : Program (Report PollOutcome)} {turns' : Nat}
    (h : Pursues selected now alone turns queue p) (hturns : turns ≤ turns') :
    Pursues selected now alone turns' queue p := by
  induction p generalizing turns turns' queue with
  | done report => exact pursues_done.2 (pursues_done.1 h)
  | ask q next ih =>
    match turns, turns', hturns with
    | 0, _, _ => exact absurd h id
    | turns + 1, turns' + 1, hturns =>
      intro s moment queue' hbecome hremains hnow
      obtain ⟨taken, rest, hsplit, hheld, hrest, hpursues⟩ :=
        h s moment queue' hbecome hremains hnow
      exact ⟨taken, rest, hsplit, hheld, hrest, ih _ hpursues (Nat.le_of_succ_le_succ hturns)⟩

/-- A request that is no claim takes nothing. -/
theorem pursues_ask {q : Request} {next : Reply q → Program (Report PollOutcome)}
    (hq : ∀ time, q.operation? time = none)
    (hnext : ∀ (s : Store) (moment : Moment) (queue' : List QueuedBuild),
      MayBecome alone queue queue' → s.Remains now queue' → now ≤ moment.time →
        (next (s.handle moment selected q).1).held = [] ∧
          Pursues selected now alone turns queue' (next (s.handle moment selected q).1)) :
    Pursues selected now alone (turns + 1) queue (.ask q next) := by
  intro s moment queue' hbecome hremains hnow
  obtain ⟨hheld, hpursues⟩ := hnext s moment queue' hbecome hremains hnow
  refine ⟨[], queue', rfl, by rw [hheld]; rfl, ?_, hpursues⟩
  rw [(s.handle_of_operation?_eq_none moment selected (hq moment.time)).1]
  exact hremains

/-! ## A poll in pursuit -/

/-- What follows a pass that does not fail is its report. -/
def Reports (k : ClaimPass → Program (Report PollOutcome)) : Prop :=
  ∀ result : ClaimResult, k (.ok result) = .done (ClaimPass.report 0 (.ok result))

/-- A pass has nothing in hand before its first claim. -/
theorem held_claimFirst {k : ClaimPass → Program (Report PollOutcome)} (hk : Reports k)
    (runner : RunnerId) (deadline : Tick) (candidates : List QueuedBuild) (skipped : Nat) :
    ((Feed.ofBuilds candidates .done).claimFirst runner deadline skipped >>= k).held = [] := by
  cases candidates with
  | nil =>
    change (k (.ok (.exhausted skipped))).held = []
    rw [hk]
    rfl
  | cons build candidates => rfl

/-- A pass over candidates among which is all that is left. -/
theorem pursues_claimFirst {k : ClaimPass → Program (Report PollOutcome)} (hk : Reports k)
    (runner : RunnerId) (deadline : Tick) {candidates : List QueuedBuild}
    (hnodup : (candidates.map (·.jobId)).Nodup) (skipped : Nat)
    (hqueue : MayBecome alone candidates queue) (hskipped : alone → skipped = 0) :
    Pursues selected now alone (2 * candidates.length) queue
      ((Feed.ofBuilds candidates .done).claimFirst runner deadline skipped >>= k) := by
  have hconflicts (halone : alone) : UInt64.ofNat skipped = 0 := by
    rw [hskipped halone]
    rfl
  induction candidates generalizing queue skipped with
  | nil =>
    have hnone : queue = [] := List.suffix_nil.1 hqueue.1
    change Pursues _ _ _ _ _ (k (.ok (.exhausted skipped)))
    rw [hk, pursues_done]
    exact .empty hnone hconflicts
  | cons build candidates ih =>
    have hothers := hnodup
    rw [List.map_cons, List.nodup_cons] at hothers
    apply pursues_ask fun _ ↦ rfl
    intro s moment queue' hbecome hremains hnow
    have hqueue' : MayBecome alone (build :: candidates) queue' := hqueue.trans hbecome
    change Program.held ((if deadline ≤ moment.tick then _ else _) >>= k) = [] ∧
      Pursues _ _ _ _ _ ((if deadline ≤ moment.tick then _ else _) >>= k)
    by_cases hlate : deadline ≤ moment.tick
    · rw [if_pos hlate]
      change (k (.ok (.timedOut skipped))).held = [] ∧ Pursues _ _ _ _ _ (k (.ok (.timedOut skipped)))
      rw [hk, pursues_done]
      exact ⟨rfl, .timedOut rfl⟩
    · rw [if_neg hlate]
      refine ⟨rfl, ?_⟩
      intro s moment queue'' hbecome hremains hnow
      have hqueue'' : MayBecome alone (build :: candidates) queue'' := hqueue'.trans hbecome
      rcases List.suffix_cons_iff.1 hqueue''.1 with rfl | hlost
      -- The build is the first that is left, so it is taken.
      · obtain ⟨hgiven, hrest⟩ := hremains.tryClaim_first runner moment.time
        have hreply : (s.handle moment selected (.claim build.jobId runner)).1 =
            .ok (some ⟨build.jobId, runner, moment.time⟩) := congrArg Except.ok hgiven
        refine ⟨[build], candidates, rfl, ?_, hrest, ?_⟩
        · rw [hreply]
          change (k (.ok (.assigned _ skipped))).held.map _ = _
          rw [hk]
          rfl
        · rw [hreply]
          change Pursues _ _ _ _ _ (k (.ok (.assigned _ skipped)))
          rw [hk, pursues_done]
          exact .assigned _ hconflicts
      -- It is gone, which cannot be with nobody else there.
      · have hgone : build.jobId ∉ queue''.map (·.jobId) := fun hmem ↦
          hothers.1 ((hlost.map _).subset hmem)
        have hclaim : s.tryClaim build.jobId runner moment.time = (none, s) :=
          hremains.tryClaim_gone hgone runner moment.time
        have hcrowd : ¬ alone := by
          intro halone
          rw [hqueue''.2 halone] at hgone
          exact hgone List.mem_cons_self
        have hreply : (s.handle moment selected (.claim build.jobId runner)).1 = .ok none :=
          congrArg (fun claim : Option Assignment × Store ↦ Except.ok claim.1) hclaim
        have hstore : (s.handle moment selected (.claim build.jobId runner)).2 = s :=
          congrArg Prod.snd hclaim
        refine ⟨[], queue'', rfl, ?_, by rw [hstore]; exact hremains, ?_⟩
        · rw [hreply]
          exact congrArg _ (held_claimFirst hk runner deadline candidates (skipped + 1))
        · rw [hreply]
          exact ih hothers.2 (skipped + 1) ⟨hlost, fun halone ↦ absurd halone hcrowd⟩
            (fun halone ↦ absurd halone hcrowd) (fun halone ↦ absurd halone hcrowd)

/-- A runner that may take every one of these builds, at any cutoff from this instant on. -/
structure Runner.Suits (runner : Runner) (now : Instant) (queue : List QueuedBuild) : Prop where
  active : runner.active = true
  scope : runner.scope = .everything
  admits : ∀ cutoff, now ≤ cutoff → ∀ build ∈ queue,
    Eligibility.admits ⟨runner, cutoff⟩ build = true

theorem Runner.Suits.of_subset {runner : Runner} {queue' : List QueuedBuild}
    (h : runner.Suits now queue) (hqueue : queue' ⊆ queue) : runner.Suits now queue' :=
  ⟨h.active, h.scope, fun cutoff hcutoff build hbuild ↦ h.admits cutoff hcutoff build (hqueue hbuild)⟩

theorem Instant.before_zero (t : Instant) : t.before .zero = t := by
  have hspan : Instant.span? .zero = some 0 := by decide
  have hoffset : t.offset? (-0) = some t := by
    unfold Instant.offset? Instant.ofNanos?
    rw [dif_pos ⟨by have := t.lowest_le; omega, by have := t.le_highest; omega⟩]
    simp
  unfold Instant.before
  rw [hspan, Option.bind_some, hoffset]
  rfl

/-- The claims of a poll are one pass over a snapshot and what follows from it. -/
theorem Engine.claim_eq (engine : Engine) (scope : ProjectScope) (eligibility : Eligibility)
    (deadline : Tick) : ∃ k : StrategyKind → ClaimPass → Program (Report PollOutcome),
      (∀ strategy, Reports (k strategy)) ∧
      engine.claim scope eligibility deadline =
        .ask .selection fun strategy ↦ .ask (.fetch strategy scope eligibility.cutoff) fun feed ↦
          (eligibility.applyFeed feed).claimFirst eligibility.runner.id deadline 0 >>= k strategy := by
  refine ⟨_, ?_, rfl⟩
  intro strategy result
  cases result <;> rfl

theorem Runner.Suits.poll_eq {runner : Runner} (h : runner.Suits now queue) (engine : Engine) :
    engine.poll runner .none =
      .ask .tick fun start ↦ .ask .wallClock fun time ↦
        engine.claim .everything ⟨runner, engine.defaultCutoff time⟩
          (start + engine.pollTimeout.nanos) := by
  unfold Engine.poll
  rw [h.active, h.scope]
  rfl

/-- A poll has nothing in hand before it asks for anything. -/
theorem Runner.Suits.held_poll {runner : Runner} (h : runner.Suits now queue) (engine : Engine) :
    (engine.poll runner .none).held = [] := by
  rw [h.poll_eq]
  rfl

/-- A snapshot offers such a runner all that is left. -/
theorem Runner.Suits.applyFeed_scan {runner : Runner} (h : runner.Suits now queue) {s : Store}
    (hs : s.Remains now queue) (strategy : StrategyKind) {cutoff : Instant} (hcutoff : now ≤ cutoff) :
    Eligibility.applyFeed ⟨runner, cutoff⟩ (Feed.ofResult (s.scan strategy .everything cutoff)) =
      Feed.ofBuilds queue .done := by
  have hall : queue.filter (Eligibility.admits ⟨runner, cutoff⟩) = queue := by
    rw [List.filter_eq_self]
    exact h.admits cutoff hcutoff
  rw [hs.scan strategy hcutoff]
  change (Feed.ofBuilds queue .done).filter _ = _
  rw [Feed.filter_ofBuilds, hall]
  rfl

theorem pursues_claim (engine : Engine) {runner : Runner} (hrunner : runner.Suits now queue)
    {cutoff : Instant} (hcutoff : now ≤ cutoff) (deadline : Tick) :
    Pursues selected now alone (2 * queue.length + 2) queue
      (engine.claim .everything ⟨runner, cutoff⟩ deadline) := by
  obtain ⟨k, hk, hclaim⟩ := engine.claim_eq .everything ⟨runner, cutoff⟩ deadline
  rw [hclaim]
  apply pursues_ask fun _ ↦ rfl
  intro s moment queue' hqueue' _ _
  refine ⟨rfl, ?_⟩
  apply pursues_ask fun _ ↦ rfl
  intro s moment queue'' hqueue'' hremains _
  have hbecome : MayBecome alone queue queue'' := hqueue'.trans hqueue''
  have hlength : queue''.length ≤ queue.length := hbecome.1.length_le
  have hfeed : Eligibility.applyFeed ⟨runner, cutoff⟩
      (Feed.ofResult (s.scan selected .everything cutoff)) = Feed.ofBuilds queue'' .done :=
    (hrunner.of_subset hbecome.1.subset).applyFeed_scan hremains selected hcutoff
  change ((Eligibility.applyFeed ⟨runner, cutoff⟩
      (Feed.ofResult (s.scan selected .everything cutoff))).claimFirst _ _ _ >>= _).held = [] ∧
    Pursues _ _ _ _ _ ((Eligibility.applyFeed ⟨runner, cutoff⟩
      (Feed.ofResult (s.scan selected .everything cutoff))).claimFirst _ _ _ >>= _)
  rw [hfeed]
  have hpass : Pursues selected now alone (2 * queue''.length) queue''
      ((Feed.ofBuilds queue'' .done).claimFirst runner.id deadline 0 >>= k selected) :=
    pursues_claimFirst (hk selected) _ _ hremains.nodup 0 ⟨List.suffix_refl _, fun _ ↦ rfl⟩
      fun _ ↦ rfl
  exact ⟨held_claimFirst (hk selected) _ _ _ _, hpass.mono (by omega)⟩

/-- A poll of such a runner takes a turn for each clock, the strategy and the snapshot, and two for
each build of the snapshot. -/
theorem pursues_poll (engine : Engine) (hbackoff : engine.backoff = .zero) {runner : Runner}
    (hrunner : runner.Suits now queue) :
    Pursues selected now alone (2 * queue.length + 4) queue (engine.poll runner .none) := by
  rw [hrunner.poll_eq]
  apply pursues_ask fun _ ↦ rfl
  intro s moment queue' hqueue' _ _
  refine ⟨rfl, ?_⟩
  apply pursues_ask fun _ ↦ rfl
  intro s moment' queue'' hqueue'' _ htime
  have hcutoff : now ≤ engine.defaultCutoff moment'.time := by
    unfold Engine.defaultCutoff
    rw [hbackoff, Instant.before_zero]
    exact htime
  exact ⟨rfl, (pursues_claim engine hrunner hcutoff _).stable (hqueue'.trans hqueue'')⟩

end

end BuildQueue
