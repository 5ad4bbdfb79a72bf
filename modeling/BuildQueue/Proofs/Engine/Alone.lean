import BuildQueue.Proofs.Engine.Course

/-!
# What a call comes to when it is alone

A poll that is alone at a store takes the first eligible build of the direct scan, if it is in time,
whichever view of the queue it reads and even if that view fails it, as long as it may fail over or
nothing fails. The depth of the queue is the length of the direct scan in the same way.
-/

namespace BuildQueue

/-- What a pass over a feed hands out. -/
def ClaimResult.outcome : ClaimResult → PollOutcome
  | .assigned a _ => .assigned a
  | _ => .empty

theorem ClaimPass.result_report (failovers : UInt64) (result : ClaimResult) :
    (ClaimPass.report failovers (.ok result)).result = .ok result.outcome := by
  cases result <;> rfl

namespace Store

/-- The builds that a runner may take, in queue order. -/
def eligible (s : Store) (runner : Runner) (cutoff : Instant) : List QueuedBuild :=
  Eligibility.apply ⟨runner, cutoff⟩ (s.scanBuilds (s.scopeOf runner.scope) cutoff)

/-- Hands out the first of some builds, if it is not too late at the clock's next reading. -/
def handOut (s : Store) (clock : Nat → Moment) (n : Nat) (deadline : Tick) (runner : RunnerId) :
    List QueuedBuild → PollOutcome × Store
  | [] => (.empty, s)
  | build :: _ =>
    if deadline ≤ (clock n).tick then (.empty, s)
    else
      (.assigned ⟨build.jobId, runner, (clock (n + 1)).time⟩,
        (s.tryClaim build.jobId runner (clock (n + 1)).time).2)

variable {s : Store}

theorem handOut_cons (clock : Nat → Moment) (n : Nat) (deadline : Tick) (runner : RunnerId)
    (build : QueuedBuild) (builds : List QueuedBuild) :
    s.handOut clock n deadline runner (build :: builds) =
      if deadline ≤ (clock n).tick then (.empty, s)
      else
        (.assigned ⟨build.jobId, runner, (clock (n + 1)).time⟩,
          (s.tryClaim build.jobId runner (clock (n + 1)).time).2) := rfl

theorem Sound.status?_of_mem_scanBuilds (h : s.Sound) {scope : ProjectScope} {cutoff : Instant}
    {build : QueuedBuild} (hmem : build ∈ s.scanBuilds scope cutoff) :
    s.status? build.jobId = some .pending := by
  have hbuild := (h.mem_scanBuilds.1 hmem).1
  obtain ⟨row, hfound, hqueued⟩ := Option.bind_eq_some_iff.1 hbuild
  unfold status?
  rw [hfound, Option.map_some, (queued?_eq_some_iff.1 hqueued).1]

theorem scanBuilds_of_isEmpty {scope : ProjectScope} (cutoff : Instant)
    (h : scope.isEmpty = true) : s.scanBuilds scope cutoff = [] := by
  cases scope with
  | everything => simp [ProjectScope.isEmpty] at h
  | projects ids =>
    have hids : ids = .empty := OrderedSet.isEmpty_iff.1 h
    rw [hids, List.eq_nil_iff_forall_not_mem]
    intro build hmem
    unfold scanBuilds at hmem
    rw [QueuedBuild.mem_sort, List.mem_filter] at hmem
    simp [ProjectScope.admits] at hmem

end Store

namespace Engine

/-- The cutoff of a poll, given what the clocks read. -/
def cutoffAt (engine : Engine) (options : PollOptions) (clock : Nat → Moment) : Instant :=
  options.queuedBefore.getD (engine.defaultCutoff (clock 1).time)

def deadlineAt (engine : Engine) (options : PollOptions) (clock : Nat → Moment) : Tick :=
  (clock 0).tick + (options.timeout.getD engine.pollTimeout).nanos

/-- What a poll hands out that is alone at a store, and the store it leaves. -/
def pollAlone (engine : Engine) (runner : Runner) (options : PollOptions) (clock : Nat → Moment)
    (s : Store) : PollOutcome × Store :=
  if runner.active then
    s.handOut clock (if options.queuedBefore.isSome then 1 else 2)
      (engine.deadlineAt options clock) runner.id
      (s.eligible runner (engine.cutoffAt options clock))
  else (.empty, s)

end Engine

namespace Course

variable {c : Course} {s : Store} {selected : StrategyKind} {n : Nat} {d : Desk}

/-- A call came to an outcome and left a store. -/
def CameTo (c : Course) (selected : StrategyKind) (expected : PollOutcome × Store)
    (outcome : PollOutcome) (d : Desk) : Prop :=
  outcome = expected.1 ∧ ∃ n, c.At expected.2 selected n d

/-- Either nothing fails for good, since the direct scan never does, or nothing fails at all. -/
def Serves (c : Course) (engine : Engine) (s : Store) (selected : StrategyKind) : Prop :=
  engine.failover = true ∨
    c.IsSteady ∧ (selected = .directScan ∨ s.projectionAvailable = true)

/-- A call that is failed may fail over. -/
theorem Serves.canFailOver {engine : Engine} (h : c.Serves engine s selected)
    {strategy : StrategyKind} (hmay : c.MayFail s strategy)
    (hstrategy : c.IsSteady → strategy = selected) : engine.canFailOver strategy = true := by
  have hfailover : engine.failover = true := by
    rcases h with hfailover | ⟨hsteady, hdirect | havailable⟩
    · exact hfailover
    · have hscan : strategy = .directScan := (hstrategy hsteady).trans hdirect
      rw [hscan] at hmay
      exact absurd hmay not_mayFail_directScan
    · exact absurd ⟨hsteady, havailable⟩ hmay.2
  unfold Engine.canFailOver
  rw [hfailover, hmay.1]
  rfl

/-- The first build that a pass meets is pending, so the claim succeeds. -/
theorem At.leads_claimFirst (h : c.At s selected n d) (runner : RunnerId) (deadline : Tick)
    {build : QueuedBuild} (hpending : s.status? build.jobId = some .pending)
    (builds : List QueuedBuild) (rest : Feed) :
    ((Feed.ofBuilds (build :: builds) rest).claimFirst runner deadline 0).Leads c.handle
      (fun pass d' ↦ ∃ result, pass = .ok result ∧
        c.CameTo selected (s.handOut c.clock n deadline runner (build :: builds))
          result.outcome d') d := by
  change (Program.ask .tick _).Leads _ _ _
  apply h.leads_tick
  intro d₁ h₁
  rw [Store.handOut_cons]
  by_cases hlate : deadline ≤ (c.clock n).tick
  · rw [if_pos hlate, if_pos hlate]
    exact ⟨_, rfl, rfl, _, h₁⟩
  · rw [if_neg hlate, if_neg hlate]
    apply h₁.leads_claim _ _
    intro d₂ h₂
    obtain ⟨row, hfound, hstatus⟩ := Option.map_eq_some_iff.1 hpending
    have hclaim := Store.tryClaim_pending runner (c.clock (n + 1)).time hfound hstatus
    rw [hclaim] at h₂ ⊢
    exact ⟨_, rfl, rfl, _, h₂⟩

/-- A pass takes the first eligible build, or fails and leaves everything as it was. -/
theorem At.leads_claimFrom (h : c.At s selected n d) (hsound : s.Sound) (strategy : StrategyKind)
    (scope : ProjectScope) (eligibility : Eligibility) (deadline : Tick) :
    (claimFrom strategy scope eligibility deadline).Leads c.handle
      (fun pass d' ↦
        (∃ result, pass = .ok result ∧
          c.CameTo selected (s.handOut c.clock n deadline eligibility.runner.id
            (eligibility.apply (s.scanBuilds scope eligibility.cutoff))) result.outcome d') ∨
        c.MayFail s strategy ∧ (∃ e, pass = .error (.snapshot e)) ∧ c.At s selected n d') d := by
  apply h.leads_fetch hsound strategy scope eligibility.cutoff
  intro feed d₁ hfeed h₁
  have hpending : ∀ build ∈ eligibility.apply (s.scanBuilds scope eligibility.cutoff),
      s.status? build.jobId = some .pending := by
    intro build hmem
    exact hsound.status?_of_mem_scanBuilds (List.mem_filter.1 hmem).1
  unfold Eligibility.applyFeed
  cases hfeed with
  | whole =>
    rw [Feed.filter_ofBuilds]
    change ((Feed.ofBuilds (eligibility.apply _) .done).claimFirst _ _ _).Leads _ _ _
    cases hbuilds : eligibility.apply (s.scanBuilds scope eligibility.cutoff) with
    | nil => exact .inl ⟨.exhausted 0, rfl, rfl, n, h₁⟩
    | cons build builds =>
      rw [hbuilds] at hpending
      exact (h₁.leads_claimFirst _ _ (hpending build List.mem_cons_self) _ _).imp
        fun pass d' hcame ↦ .inl hcame
  | broken hmay most e rest =>
    rw [Feed.filter_ofBuilds]
    have hsplit : eligibility.apply (s.scanBuilds scope eligibility.cutoff) =
        eligibility.apply ((s.scanBuilds scope eligibility.cutoff).take most) ++
          eligibility.apply ((s.scanBuilds scope eligibility.cutoff).drop most) := by
      unfold Eligibility.apply
      rw [← List.filter_append, List.take_append_drop]
    change ((Feed.ofBuilds (eligibility.apply _) _).claimFirst _ _ _).Leads _ _ _
    cases hbuilds : eligibility.apply ((s.scanBuilds scope eligibility.cutoff).take most) with
    | nil => exact .inr ⟨hmay, ⟨e, rfl⟩, h₁⟩
    | cons build builds =>
      -- What comes after the first eligible build is never asked for.
      rw [hbuilds, List.cons_append] at hsplit
      rw [hsplit] at hpending ⊢
      exact (h₁.leads_claimFirst _ _ (hpending build List.mem_cons_self) _ _).imp
        fun pass d' hcame ↦ .inl hcame

theorem At.leads_engine_claim (h : c.At s selected n d) (hsound : s.Sound) {engine : Engine}
    (hserves : c.Serves engine s selected) (scope : ProjectScope) (eligibility : Eligibility)
    (deadline : Tick) :
    (engine.claim scope eligibility deadline).Leads c.handle
      (fun report d' ↦ ∃ outcome, report.result = .ok outcome ∧
        c.CameTo selected (s.handOut c.clock n deadline eligibility.runner.id
          (eligibility.apply (s.scanBuilds scope eligibility.cutoff))) outcome d') d := by
  unfold Engine.claim
  rw [Program.leads_bind]
  apply h.leads_selection
  intro strategy d₁ hstrategy h₁
  rw [Program.leads_done, Program.leads_bind]
  apply (h₁.leads_claimFrom hsound strategy scope eligibility deadline).imp
  intro pass d₂ hpass
  rcases hpass with ⟨result, rfl, hcame⟩ | ⟨hmay, ⟨e, rfl⟩, h₂⟩
  · exact ⟨result.outcome, ClaimPass.result_report 0 result, hcame⟩
  · change Program.Leads _ _ (if engine.canFailOver strategy then _ else _) _
    rw [if_pos (hserves.canFailOver hmay hstrategy), Program.leads_bind]
    apply (h₂.leads_claimFrom hsound .directScan scope eligibility deadline).imp
    intro pass d₃ hpass
    rcases hpass with ⟨result, rfl, hcame⟩ | ⟨hmay, -⟩
    · exact ⟨result.outcome, ClaimPass.result_report 1 result, hcame⟩
    · exact absurd hmay not_mayFail_directScan

theorem At.leads_resolve (h : c.At s selected n d) (scope : RunnerScope) (deadline : Deadline) :
    (scope.resolve deadline).Leads c.handle
      (fun resolution d' ↦ resolution = .scope (s.scopeOf scope) ∧ c.At s selected n d') d := by
  cases scope with
  | everything => exact ⟨rfl, h⟩
  | group root =>
    apply h.leads_descendants root deadline
    intro d₁ h₁
    apply h₁.leads_projects (s.descendantProjectIds root) deadline
    intro d₂ h₂
    exact ⟨rfl, h₂⟩
  | project ids =>
    apply h.leads_projects ids deadline
    intro d₁ h₁
    exact ⟨rfl, h₁⟩

theorem At.leads_cutoff (h : c.At s selected n d) (engine : Engine) (given : Option Instant) :
    (engine.cutoff given).Leads c.handle
      (fun cutoff d' ↦ cutoff = given.getD (engine.defaultCutoff (c.clock n).time) ∧
        c.At s selected (if given.isSome then n else n + 1) d') d := by
  cases given with
  | some cutoff => exact ⟨rfl, h⟩
  | none =>
    apply h.leads_wallClock
    intro d₁ h₁
    exact ⟨rfl, h₁⟩

/-- A poll that is alone reads the clock, the cutoff and the scope. A paused runner gets nothing,
nor does one with nothing in scope; for any other the poll goes on to claim. -/
theorem leads_poll_of (c : Course) (s : Store) (selected : StrategyKind) (engine : Engine)
    (runner : Runner) (options : PollOptions) {Q : Report PollOutcome → Desk → Prop}
    (hidle : (runner.active = true → (s.scopeOf runner.scope).isEmpty = true) →
      ∀ report n d', report.result = .ok .empty → c.At s selected n d' → Q report d')
    (hclaim : runner.active = true → (s.scopeOf runner.scope).isEmpty = false →
      ∀ d', c.At s selected (if options.queuedBefore.isSome then 1 else 2) d' →
        (engine.claim (s.scopeOf runner.scope) ⟨runner, engine.cutoffAt options c.clock⟩
          (engine.deadlineAt options c.clock)).Leads c.handle Q d') :
    (engine.poll runner options).Leads c.handle Q ⟨s, selected, 0, 0⟩ := by
  have h : c.At s selected 0 ⟨s, selected, 0, 0⟩ := At.start c s selected
  unfold Engine.poll
  cases hactive : runner.active with
  | false =>
    apply hidle _ _ _ _ rfl h
    intro htrue
    rw [hactive] at htrue
    exact absurd htrue (by decide)
  | true =>
    change Program.Leads _ _ (Program.request .tick >>= _) _
    rw [Program.leads_bind]
    apply h.leads_tick
    intro d₁ h₁
    rw [Program.leads_done, Program.leads_bind]
    apply (h₁.leads_cutoff engine options.queuedBefore).imp
    intro cutoff d₂ hcutoff
    obtain ⟨rfl, h₂⟩ := hcutoff
    rw [Program.leads_bind]
    apply (h₂.leads_resolve runner.scope _).imp
    intro resolution d₃ hresolution
    obtain ⟨rfl, h₃⟩ := hresolution
    change Program.Leads _ _ (if (s.scopeOf runner.scope).isEmpty then _ else _) _
    cases hempty : (s.scopeOf runner.scope).isEmpty with
    | true => exact hidle (fun _ ↦ hempty) _ _ _ rfl h₃
    | false => exact hclaim hactive hempty d₃ h₃

/-- A poll that is alone comes to what it would come to on the direct scan. -/
theorem leads_poll (c : Course) (selected : StrategyKind) (hsound : s.Sound) {engine : Engine}
    (hserves : c.Serves engine s selected) (runner : Runner) (options : PollOptions) :
    (engine.poll runner options).Leads c.handle
      (fun report d' ↦ ∃ outcome, report.result = .ok outcome ∧
        c.CameTo selected (engine.pollAlone runner options c.clock s) outcome d')
      ⟨s, selected, 0, 0⟩ := by
  apply c.leads_poll_of s selected engine runner options
  · intro hidle report n d' hresult hat
    have halone : engine.pollAlone runner options c.clock s = (.empty, s) := by
      unfold Engine.pollAlone
      split
      next hactive =>
        have hnone : s.eligible runner (engine.cutoffAt options c.clock) = [] := by
          unfold Store.eligible
          rw [Store.scanBuilds_of_isEmpty _ (hidle hactive)]
          rfl
        rw [hnone]
        rfl
      next => rfl
    rw [halone]
    exact ⟨_, hresult, rfl, _, hat⟩
  · intro hactive _ d' hat
    have halone : engine.pollAlone runner options c.clock s =
        s.handOut c.clock (if options.queuedBefore.isSome then 1 else 2)
          (engine.deadlineAt options c.clock) runner.id
          (s.eligible runner (engine.cutoffAt options c.clock)) := by
      unfold Engine.pollAlone
      rw [hactive, if_pos rfl]
    rw [halone]
    exact hat.leads_engine_claim hsound hserves (s.scopeOf runner.scope)
      ⟨runner, engine.cutoffAt options c.clock⟩ (engine.deadlineAt options c.clock)

/-- If nothing is switched and nothing breaks off, the store is the very one that is expected. -/
theorem steady_poll (clock : Nat → Moment) (hsound : s.Sound) {engine : Engine}
    (hview : engine.failover = true ∨ selected = .directScan ∨ s.projectionAvailable = true)
    (runner : Runner) (options : PollOptions) :
    (engine.poll runner options).Leads (steady clock).handle
      (fun report d' ↦ report.result = .ok (engine.pollAlone runner options clock s).1 ∧
        d'.store = (engine.pollAlone runner options clock s).2)
      ⟨s, selected, 0, 0⟩ := by
  have hsteady : (steady clock).IsSteady := ⟨fun _ ↦ rfl, rfl⟩
  have hserves : (steady clock).Serves engine s selected :=
    hview.imp_right fun hreach ↦ ⟨hsteady, hreach⟩
  apply (leads_poll (steady clock) selected hsound hserves runner options).imp
  rintro report d' ⟨outcome, hresult, rfl, n, hat⟩
  exact ⟨hresult, (hat.steady hsteady).1⟩

/-- A pass over a projection that is out of reach fails before it claims anything. -/
theorem At.leads_claimFrom_unserved {clock : Nat → Moment}
    (h : (Course.steady clock).At s selected n d) (hreach : s.projectionAvailable = false)
    (scope : ProjectScope) (eligibility : Eligibility) (deadline : Tick) :
    (claimFrom .projection scope eligibility deadline).Leads (Course.steady clock).handle
      (fun pass d' ↦ pass = .error (.snapshot .projectionUnavailable) ∧
        (Course.steady clock).At s selected n d') d := by
  have hsteady : (Course.steady clock).IsSteady := ⟨fun _ ↦ rfl, rfl⟩
  obtain ⟨d₁, h₁, hafter, hreply⟩ := h.ask (q := .fetch .projection scope eligibility.cutoff) rfl
  have hscan : d₁.store.scan .projection scope eligibility.cutoff =
      .error .projectionUnavailable := by
    change d₁.store.scanPending _ _ = _
    unfold Store.scanPending
    rw [(h₁.steady hsteady).1, hreach]
    rfl
  have hfeed : ((Course.steady clock).handle (.fetch .projection scope eligibility.cutoff) d).1 =
      .ofResult (.error .projectionUnavailable) := by
    rw [hreply, ← hscan]
    rfl
  change Program.Leads _ _ (Program.ask (.fetch ..) _) _
  rw [Program.leads_ask, hfeed]
  exact ⟨rfl, hafter⟩

/-- While the projection is selected and out of reach, a poll that cannot fail over is failed by it
as soon as it claims. -/
theorem leads_poll_unserved (clock : Nat → Moment) {engine : Engine}
    (hfailover : engine.failover = false) (hreach : s.projectionAvailable = false)
    (runner : Runner) (options : PollOptions) :
    (engine.poll runner options).Leads (steady clock).handle
      (fun report d' ↦
        report.result =
          (if runner.active && !(s.scopeOf runner.scope).isEmpty then .error .projectionUnavailable
          else .ok .empty) ∧
        d'.store = s)
      ⟨s, .projection, 0, 0⟩ := by
  have hsteady : (steady clock).IsSteady := ⟨fun _ ↦ rfl, rfl⟩
  have hnot : engine.canFailOver .projection = false := by
    unfold Engine.canFailOver
    rw [hfailover]
    rfl
  apply (steady clock).leads_poll_of s .projection engine runner options
  · intro hidle report n d' hresult hat
    refine ⟨?_, (hat.steady hsteady).1⟩
    rw [hresult]
    cases hactive : runner.active with
    | false => rfl
    | true =>
      rw [hidle hactive]
      rfl
  · intro hactive hempty d' hat
    rw [hactive, hempty]
    unfold Engine.claim
    rw [Program.leads_bind]
    apply hat.leads_selection
    intro strategy d₁ hstrategy h₁
    obtain rfl : strategy = .projection := hstrategy hsteady
    rw [Program.leads_done, Program.leads_bind]
    apply (h₁.leads_claimFrom_unserved hreach _ _ _).imp
    rintro pass d₂ ⟨rfl, h₂⟩
    change Program.Leads _ _ (if engine.canFailOver .projection then _ else _) _
    rw [hnot]
    exact ⟨rfl, (h₂.steady hsteady).1⟩

/-- The depth of the queue is the length of the direct scan. -/
theorem leads_queueDepth (c : Course) (selected : StrategyKind) (hsound : s.Sound)
    {engine : Engine} (hserves : c.Serves engine s selected) (runner : Runner) :
    (engine.queueDepth runner).Leads c.handle
      (fun report d' ↦ report.result = .ok (s.scanBuilds (s.scopeOf runner.scope)
          (engine.defaultCutoff (c.clock 0).time)).length ∧ ∃ n, c.At s selected n d')
      ⟨s, selected, 0, 0⟩ := by
  have h : c.At s selected 0 ⟨s, selected, 0, 0⟩ := At.start c s selected
  unfold Engine.queueDepth
  rw [Program.leads_bind]
  apply (h.leads_resolve runner.scope none).imp
  intro resolution d₁ hresolution
  obtain ⟨rfl, h₁⟩ := hresolution
  change Program.Leads _ _ (if (s.scopeOf runner.scope).isEmpty then _ else _) _
  by_cases hempty : (s.scopeOf runner.scope).isEmpty = true
  · rw [if_pos hempty, Store.scanBuilds_of_isEmpty _ hempty]
    exact ⟨rfl, _, h₁⟩
  · rw [if_neg hempty, Program.leads_bind]
    apply (h₁.leads_cutoff engine none).imp
    intro cutoff d₂ hcutoff
    obtain ⟨rfl, h₂⟩ := hcutoff
    rw [Program.leads_bind]
    apply h₂.leads_selection
    intro strategy d₃ hstrategy h₃
    rw [Program.leads_done, Program.leads_bind]
    apply h₃.leads_depth hsound strategy _ _
    intro reply d₄ h₄ hreply
    rw [Program.leads_done]
    rcases hreply with rfl | ⟨hmay, e, rfl⟩
    · exact ⟨rfl, _, h₄⟩
    · change Program.Leads _ _ (if engine.canFailOver strategy then _ else _) _
      rw [if_pos (hserves.canFailOver hmay hstrategy), Program.leads_bind]
      apply h₄.leads_depth hsound .directScan _ _
      intro reply d₅ h₅ hreply
      rcases hreply with rfl | ⟨hmay, -⟩
      · exact ⟨rfl, _, h₅⟩
      · exact absurd hmay not_mayFail_directScan

end Course

end BuildQueue
