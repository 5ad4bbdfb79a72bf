import BuildQueue.Bench.Handler
import BuildQueue.Proofs.Engine.Passes

/-!
# Where failures surface

A poll whose lookups fail, or that finds no projects, hands out nothing and reads no snapshot. From
then on an error is either recovered by the one pass over the direct scan or it is the result of
the poll: a poll fails with an error just if this error ended its last pass.
-/

namespace BuildQueue

/-! ## Lookups that fail -/

/-- A lookup of the directory that was answered with an error, or not before the deadline. -/
def Exchange.failsLookup : Exchange → Bool
  | ⟨.descendants .., none⟩ | ⟨.descendants .., some (.error _)⟩ => true
  | ⟨.projects .., none⟩ | ⟨.projects .., some (.error _)⟩ => true
  | _ => false

/-- A lookup of the directory that was answered with an error. -/
def Exchange.isLookupError : Exchange → Bool
  | ⟨.descendants .., some (.error _)⟩ | ⟨.projects .., some (.error _)⟩ => true
  | _ => false

/-- A lookup of the directory that was not answered before the deadline. -/
def Exchange.isLookupTimeout : Exchange → Bool
  | ⟨.descendants .., none⟩ | ⟨.projects .., none⟩ => true
  | _ => false

theorem Exchange.failsLookup_eq (x : Exchange) :
    x.failsLookup = (x.isLookupError || x.isLookupTimeout) := by
  obtain ⟨q, reply⟩ := x
  cases q with
  | descendants | projects => rcases reply with _ | _ | _ <;> rfl
  | _ => rfl

/-- The strategy that was read from the selection. -/
def Exchange.selected? : Exchange → Option StrategyKind
  | ⟨.selection, strategy⟩ => some strategy
  | _ => none

namespace Resolution

def isFailed : Resolution → Bool
  | .failed _ => true
  | _ => false

def isTimedOut : Resolution → Bool
  | .timedOut => true
  | _ => false

theorem eq_scope_of_isEmpty {resolution : Resolution}
    (h : resolution.scopeOrEmpty.isEmpty = false) : ∃ found, resolution = .scope found := by
  cases resolution with
  | scope found => exact ⟨found, rfl⟩
  | failed | timedOut => cases h

/-- Why a poll that got no further than to this resolution came to nothing, as it is counted. -/
def reason : Resolution → Metrics
  | .scope _ => .zero
  | .failed _ => { Metrics.zero with scopeFailures := 1 }
  | .timedOut => { Metrics.zero with timeouts := 1 }

end Resolution

namespace RunnerScope

variable {scope : RunnerScope} {deadline : Deadline} {lookups : List Exchange}
  {resolution : Resolution}

/-- A resolution fails, or times out, just if a lookup does. -/
theorem resolve_lookups (h : (scope.resolve deadline).Completes lookups resolution) :
    lookups.any Exchange.isLookupError = resolution.isFailed ∧
      lookups.any Exchange.isLookupTimeout = resolution.isTimedOut := by
  cases scope with
  | everything =>
    obtain ⟨rfl, rfl⟩ := Program.completes_done.1 h
    exact ⟨rfl, rfl⟩
  | group root =>
    obtain ⟨reply, later, rfl, hlater⟩ := Program.completes_ask.1 h
    rcases reply with _ | e | ids
    · obtain ⟨rfl, rfl⟩ := Program.completes_done.1 hlater
      exact ⟨rfl, rfl⟩
    · obtain ⟨rfl, rfl⟩ := Program.completes_done.1 hlater
      exact ⟨rfl, rfl⟩
    · obtain ⟨reply, last, rfl, hlast⟩ := Program.completes_ask.1 hlater
      rcases reply with _ | e | records
      all_goals
        obtain ⟨rfl, rfl⟩ := Program.completes_done.1 hlast
        exact ⟨rfl, rfl⟩
  | project ids =>
    obtain ⟨reply, later, rfl, hlater⟩ := Program.completes_ask.1 h
    rcases reply with _ | e | records
    all_goals
      obtain ⟨rfl, rfl⟩ := Program.completes_done.1 hlater
      exact ⟨rfl, rfl⟩

/-- A scope is found just if no lookup failed. -/
theorem resolve_failed_iff (h : (scope.resolve deadline).Completes lookups resolution) :
    (∃ x ∈ lookups, x.failsLookup = true) ↔ ∀ found, resolution ≠ .scope found := by
  obtain ⟨herror, htimeout⟩ := resolve_lookups h
  have hfails : (∃ x ∈ lookups, x.failsLookup = true) ↔
      (lookups.any Exchange.isLookupError || lookups.any Exchange.isLookupTimeout) = true := by
    simp only [Exchange.failsLookup_eq, Bool.or_eq_true, List.any_eq_true, and_or_left, exists_or]
  rw [hfails, herror, htimeout]
  cases resolution <;> simp [Resolution.isFailed, Resolution.isTimedOut]

end RunnerScope

/-! ## The stages of a poll -/

/-- The deadline of a poll that starts at this tick. -/
def Engine.deadline (engine : Engine) (options : PollOptions) (start : Tick) : Tick :=
  start + (options.timeout.getD engine.pollTimeout).nanos

/-- What a poll of an active runner asks for, stage by stage, and what it finds on the way. -/
structure Stages where
  start : Tick
  readings : List Exchange
  cutoff : Instant
  lookups : List Exchange
  resolution : Resolution
  passes : List Pass

namespace Stages

def scope (s : Stages) : ProjectScope := s.resolution.scopeOrEmpty

def exchanges (s : Stages) : List Exchange :=
  ⟨.tick, s.start⟩ :: (s.readings ++ (s.lookups ++
    (s.passes.head?.toList.map (fun p ↦ ⟨.selection, p.strategy⟩) ++
      s.passes.flatMap (Pass.exchanges s.scope s.cutoff))))

/-- What a poll asks for before its first pass. -/
def front (s : Stages) : List Exchange :=
  ⟨.tick, s.start⟩ :: (s.readings ++ s.lookups) ++
    s.passes.head?.toList.map fun p ↦ ⟨.selection, p.strategy⟩

theorem exchanges_eq (s : Stages) :
    s.exchanges = s.front ++ s.passes.flatMap (Pass.exchanges s.scope s.cutoff) := by
  simp [exchanges, front]

/-- The stages are those of a poll: its cutoff and its scope are found first, and passes are made
where the scope is not empty. -/
structure Of (engine : Engine) (runner : Runner) (options : PollOptions)
    (report : Report PollOutcome) (s : Stages) : Prop where
  cutoff : (engine.cutoff options.queuedBefore).Completes s.readings s.cutoff
  resolution : (runner.scope.resolve (some (engine.deadline options s.start))).Completes s.lookups
    s.resolution
  empty : s.scope.isEmpty = true → s.passes = [] ∧ report.result = .ok .empty
  reason : s.scope.isEmpty = true → report.metrics = .emptyPoll + s.resolution.reason
  makes : s.scope.isEmpty = false →
    engine.Makes ⟨runner, s.cutoff⟩ (engine.deadline options s.start) s.passes report

end Stages

theorem Engine.poll_completes {engine : Engine} {runner : Runner} {options : PollOptions}
    {past : List Exchange} {report : Report PollOutcome} (hactive : runner.active = true)
    (h : (engine.poll runner options).Completes past report) :
    ∃ s : Stages, past = s.exchanges ∧ s.Of engine runner options report := by
  unfold poll at h
  rw [hactive] at h
  obtain ⟨start, later, rfl, hlater⟩ := Program.completes_ask.1 h
  change (engine.cutoff _ >>= _).Completes later report at hlater
  obtain ⟨readings, cutoff, later, rfl, hcutoff, hlater⟩ := Program.completes_bind.1 hlater
  obtain ⟨lookups, resolution, later, rfl, hlookups, hlater⟩ := Program.completes_bind.1 hlater
  -- A poll that finds no projects ends here.
  have hnothing (hempty : resolution.scopeOrEmpty.isEmpty = true)
      (hend : later = [] ∧ report = .emptyPoll resolution.reason) :
      ∃ s : Stages, ⟨.tick, start⟩ :: (readings ++ (lookups ++ later)) = s.exchanges ∧
        s.Of engine runner options report := by
    obtain ⟨rfl, rfl⟩ := hend
    exact ⟨⟨start, readings, cutoff, lookups, resolution, []⟩, rfl, hcutoff, hlookups,
      fun _ ↦ ⟨rfl, rfl⟩, fun _ ↦ rfl, fun hne ↦ absurd (hempty.symm.trans hne) (by decide)⟩
  cases resolution with
  | failed e => exact hnothing rfl (Program.completes_done.1 hlater)
  | timedOut => exact hnothing rfl (Program.completes_done.1 hlater)
  | scope scope =>
    by_cases hempty : scope.isEmpty = true
    · simp only [if_pos hempty] at hlater
      exact hnothing hempty (Program.completes_done.1 hlater)
    · simp only [if_neg hempty] at hlater
      obtain ⟨passes, hmakes, rfl⟩ := Engine.claim_completes hlater
      exact ⟨⟨start, readings, cutoff, lookups, .scope scope, passes⟩, rfl, hcutoff, hlookups,
        fun hempty' ↦ absurd hempty' hempty, fun hempty' ↦ absurd hempty' hempty, fun _ ↦ hmakes⟩

/-! ## Errors of a poll -/

theorem Engine.canFailOver_iff {engine : Engine} {strategy : StrategyKind} :
    engine.canFailOver strategy = true ↔ engine.failover = true ∧ strategy = .projection := by
  cases strategy <;> simp [canFailOver]

/-- A poll fails with an error just if its last pass could not read on or claim because of it. -/
theorem Engine.Makes.error_iff {engine : Engine} {eligibility : Eligibility} {deadline : Tick}
    {passes : List Pass} {report : Report PollOutcome}
    (h : engine.Makes eligibility deadline passes report) (e : QueueError) :
    report.result = .error e ↔ ∃ p, passes.getLast? = some p ∧
      (p.FailsReading eligibility deadline e ∨ p.FailsClaiming e) := by
  have hlast {p : Pass} (hp : p.Runs eligibility deadline) (failovers : UInt64) :
      (p.result.report failovers).result = .error e ↔
        p.FailsReading eligibility deadline e ∨ p.FailsClaiming e := by
    rw [hp.failsReading_iff, hp.failsClaiming_iff]
    rcases p.result with (failure | failure) | a | skipped | skipped <;>
      simp [ClaimPass.report, ClaimFailure.error, Report.emptyPoll]
  cases h with
  | one hruns hstays => simpa using hlast hruns 0
  | two hfirst hfails hover hsecond hscan => simpa using hlast hsecond 1

/-- A second pass is made just if the first one, over the projection, could not be read and failover
is on; there is no third one. -/
theorem Engine.Makes.second_iff {engine : Engine} {eligibility : Eligibility} {deadline : Tick}
    {first : Pass} {rest : List Pass} {report : Report PollOutcome}
    (h : engine.Makes eligibility deadline (first :: rest) report) :
    (rest ≠ [] ↔ engine.failover = true ∧ first.strategy = .projection ∧
      ∃ e, first.FailsReading eligibility deadline e) ∧
    (rest ≠ [] → ∃ second, rest = [second] ∧ second.strategy = .directScan) := by
  cases h with
  | one hruns hstays =>
    refine ⟨iff_of_false (by simp) ?_, by simp⟩
    rintro ⟨hfailover, hprojection, e, hfails⟩
    have hover := Engine.canFailOver_iff.2 ⟨hfailover, hprojection⟩
    exact Bool.false_ne_true ((hstays e hfails).symm.trans hover)
  | @two _ second e hfirst hfails hover hsecond hscan =>
    obtain ⟨hfailover, hprojection⟩ := Engine.canFailOver_iff.1 hover
    exact ⟨iff_of_true (by simp) ⟨hfailover, hprojection, e, hfails⟩, fun _ ↦ ⟨second, rfl, hscan⟩⟩

/-- The first pass of two fails while it reads, so a claim that is answered with an error belongs to
the last pass. -/
theorem Engine.Makes.claim_refused {engine : Engine} {eligibility : Eligibility} {deadline : Tick}
    {passes : List Pass} {report : Report PollOutcome}
    (h : engine.Makes eligibility deadline passes report) {scope : ProjectScope} {cutoff : Instant}
    {before after : List Exchange} {job : JobId} {claimant : RunnerId} {e : QueueError}
    (hsplit : passes.head?.toList.map (fun p ↦ ⟨.selection, p.strategy⟩) ++
      passes.flatMap (Pass.exchanges scope cutoff) =
        before ++ ⟨.claim job claimant, .error e⟩ :: after) :
    after = [] ∧ report.result = .error e := by
  cases h with
  | @one p hruns hstays =>
    have hmade : [⟨.selection, p.strategy⟩, ⟨.fetch p.strategy scope cutoff, p.snapshot⟩] ++
        p.made = before ++ Exchange.mk (.claim job claimant) (.error e) :: after := by
      simpa [Pass.exchanges] using hsplit
    obtain ⟨between, hmade⟩ := exists_split_of_notMem hmade (by simp)
    obtain ⟨hafter, hresult⟩ := hruns.claim_refused hmade
    exact ⟨hafter, by rw [hresult]; rfl⟩
  | @two first second e' hfirst hfails hover hsecond hscan =>
    have hmade : ⟨.selection, first.strategy⟩ :: first.exchanges scope cutoff ++
        [⟨.fetch second.strategy scope cutoff, second.snapshot⟩] ++ second.made =
          before ++ Exchange.mk (.claim job claimant) (.error e) :: after := by
      simpa [Pass.exchanges] using hsplit
    have hfront : Exchange.mk (.claim job claimant) (.error e) ∉ first.made := by
      intro hmem
      obtain ⟨_, _, hfirstSplit⟩ := List.append_of_mem hmem
      have hresult := (hfirst.claim_refused hfirstSplit).2
      rw [hfirst.failsReading_iff.1 hfails] at hresult
      simp at hresult
    obtain ⟨between, hmade⟩ := exists_split_of_notMem hmade (by simp [Pass.exchanges, hfront])
    obtain ⟨hafter, hresult⟩ := hsecond.claim_refused hmade
    exact ⟨hafter, by rw [hresult]; rfl⟩

namespace Stages

variable {engine : Engine} {runner : Runner} {options : PollOptions} {report : Report PollOutcome}
  {s : Stages}

theorem Of.readings (h : s.Of engine runner options report) :
    ∀ x ∈ s.readings, x.request = .wallClock := by
  have hasks : (engine.cutoff options.queuedBefore).Asks (fun _ q ↦ q = .wallClock) [] :=
    (engine.cutoff_asks _ rfl).imp fun _ _ hq ↦ hq.2
  exact h.cutoff.forall_may hasks

theorem Of.lookups (h : s.Of engine runner options report) :
    ∀ x ∈ s.lookups, x.request.IsLookup (some (engine.deadline options s.start)) := by
  have hasks : (runner.scope.resolve (some (engine.deadline options s.start))).Asks
      (fun _ q ↦ q.IsLookup (some (engine.deadline options s.start))) [] :=
    (runner.scope.resolve_asks _ rfl).imp fun _ _ hq ↦ hq.2
  exact h.resolution.forall_may hasks

/-- Before it reads the selection a poll only reads clocks and looks up projects. -/
theorem Of.isIdle (h : s.Of engine runner options report) :
    ∀ x ∈ s.readings ++ s.lookups, x.request.isIdle = true ∧ x.selected? = none := by
  intro x hx
  obtain ⟨q, reply⟩ := x
  rcases List.mem_append.1 hx with hx | hx
  · obtain rfl : q = .wallClock := h.readings _ hx
    exact ⟨rfl, rfl⟩
  · have hq : q.IsLookup _ := h.lookups _ hx
    refine ⟨hq.isIdle.1, ?_⟩
    cases q with
    | selection => exact hq.elim
    | _ => rfl

theorem Of.front (h : s.Of engine runner options report) :
    ∀ x ∈ s.front, x.request.isIdle = true ∧ x.request.readsQueue = false := by
  intro x hx
  rcases List.mem_append.1 hx with hx | hx
  · rcases List.mem_cons.1 hx with rfl | hx
    · exact ⟨rfl, rfl⟩
    rcases List.mem_append.1 hx with hx | hx
    · rw [h.readings x hx]
      exact ⟨rfl, rfl⟩
    · exact (h.lookups x hx).isIdle
  · obtain ⟨p, -, rfl⟩ := List.mem_map.1 hx
    exact ⟨rfl, rfl⟩

/-- A lookup that fails leaves the poll without a scope. -/
theorem Of.isEmpty_of_failsLookup (h : s.Of engine runner options report)
    (hfails : ∃ x ∈ s.lookups, x.failsLookup = true) : s.scope.isEmpty = true := by
  have hnone := (RunnerScope.resolve_failed_iff h.resolution).1 hfails
  unfold scope
  cases hresolution : s.resolution with
  | scope found => exact absurd hresolution (hnone found)
  | failed e => rfl
  | timedOut => rfl

theorem Of.makes_of_passes (h : s.Of engine runner options report) {first : Pass}
    {rest : List Pass} (hpasses : s.passes = first :: rest) :
    engine.Makes ⟨runner, s.cutoff⟩ (engine.deadline options s.start) (first :: rest) report := by
  cases hempty : s.scope.isEmpty with
  | true =>
    rw [(h.empty hempty).1] at hpasses
    cases hpasses
  | false =>
    rw [← hpasses]
    exact h.makes hempty

theorem Of.runs (h : s.Of engine runner options report) :
    ∀ p ∈ s.passes, p.Runs ⟨runner, s.cutoff⟩ (engine.deadline options s.start) := by
  intro p hp
  cases hempty : s.scope.isEmpty with
  | true =>
    rw [(h.empty hempty).1] at hp
    exact absurd hp List.not_mem_nil
  | false => exact (h.makes hempty).runs p hp

/-- A pass reads no selection and looks nothing up. -/
theorem Of.isPassing (h : s.Of engine runner options report) {p : Pass} (hp : p ∈ s.passes) :
    ∀ x ∈ p.exchanges s.scope s.cutoff, x.selected? = none ∧ x.failsLookup = false := by
  intro x hx
  rcases List.mem_cons.1 hx with rfl | hx
  · exact ⟨rfl, rfl⟩
  · have hpassing := (h.runs p hp).isPassing x hx
    obtain ⟨q, reply⟩ := x
    cases q <;> simp_all [Request.isPassing, Exchange.selected?, Exchange.failsLookup]

/-- A lookup that fails is one of those that look for the scope. -/
theorem Of.mem_lookups (h : s.Of engine runner options report) {x : Exchange}
    (hx : x ∈ s.exchanges) (hfails : x.failsLookup = true) : x ∈ s.lookups := by
  simp only [exchanges, List.mem_cons, List.mem_append, List.mem_map, List.mem_flatMap] at hx
  rcases hx with rfl | hx | hx | ⟨p, hp, rfl⟩ | ⟨p, hp, hx⟩
  · cases hfails
  · have hwall := h.readings x hx
    obtain ⟨q, reply⟩ := x
    obtain rfl : q = .wallClock := hwall
    cases hfails
  · exact hx
  · cases hfails
  · rw [(h.isPassing hp x hx).2] at hfails
    cases hfails

/-- The selection is read once, right before the first pass, if there is one. -/
theorem Of.selected (h : s.Of engine runner options report) :
    s.exchanges.filterMap Exchange.selected? = s.passes.head?.toList.map (·.strategy) := by
  have hfound : (s.readings ++ s.lookups).filterMap Exchange.selected? = [] :=
    List.filterMap_eq_nil_iff.2 fun x hx ↦ (h.isIdle x hx).2
  have hpasses :
      (s.passes.flatMap (Pass.exchanges s.scope s.cutoff)).filterMap Exchange.selected? = [] := by
    refine List.filterMap_eq_nil_iff.2 fun x hx ↦ ?_
    obtain ⟨p, hp, hx⟩ := List.mem_flatMap.1 hx
    exact (h.isPassing hp x hx).1
  have hselection : (s.passes.head?.toList.map fun p ↦
      Exchange.mk .selection p.strategy).filterMap Exchange.selected? =
        s.passes.head?.toList.map (·.strategy) := by
    cases s.passes <;> rfl
  unfold exchanges
  rw [List.filterMap_cons_none rfl, ← List.append_assoc, List.filterMap_append, hfound,
    List.filterMap_append, hpasses, hselection, List.nil_append, List.append_nil]

/-- A claim that is answered with an error is the end of the poll. -/
theorem Of.claim_refused (h : s.Of engine runner options report) {before after : List Exchange}
    {job : JobId} {claimant : RunnerId} {e : QueueError}
    (hsplit : s.exchanges = before ++ ⟨.claim job claimant, .error e⟩ :: after) :
    after = [] ∧ report.result = .error e := by
  -- Until the selection is read every request is idle, and a claim is not.
  have hfront : Exchange.mk (.claim job claimant) (.error e) ∉
      ⟨.tick, s.start⟩ :: (s.readings ++ s.lookups) := by
    intro hmem
    rcases List.mem_cons.1 hmem with heq | hmem
    · cases heq
    · exact absurd (h.isIdle _ hmem).1 Bool.false_ne_true
  unfold exchanges at hsplit
  rw [← List.append_assoc] at hsplit
  obtain ⟨between, hpasses⟩ := exists_split_of_notMem hsplit hfront
  cases hempty : s.scope.isEmpty with
  | true =>
    rw [(h.empty hempty).1] at hpasses
    simp at hpasses
  | false => exact (h.makes hempty).claim_refused hpasses

end Stages

namespace Selector

/-- A selector is made only of a scan and a projection, each in its own place. -/
theorem kind_of_make {kind : StrategyKind → StrategyKind} {initial : StrategyKind}
    {selector : Selector}
    (h : make (kind .directScan) (kind .projection) initial = .ok selector)
    (slot : StrategyKind) : kind slot = slot := by
  unfold make at h
  split at h
  next => cases h
  next hscan =>
    split at h
    next => cases h
    next hprojection =>
      cases slot with
      | directScan => exact not_not.1 hscan
      | projection => exact not_not.1 hprojection

end Selector

namespace Bench

theorem selector_wait (nanos : Nat) (deadline : Deadline) (b : Bench) :
    (b.wait nanos deadline).2.selector = b.selector := by
  unfold wait
  split
  · rfl
  · split
    · rfl
    · split <;> rfl

theorem selector_lookUp {α : Type} (closed : Postgres.Dialogue (Except QueueError α))
    (found : Store → α) (error? : DirectorySource → Option QueueError) (deadline : Deadline)
    (b : Bench) : (b.lookUp closed found error? deadline).2.selector = b.selector := by
  unfold lookUp
  split
  · rfl
  · rfl
  · next delay _ _ _ =>
    have hwait := selector_wait delay deadline b
    rcases hwaited : b.wait delay deadline with ⟨_ | _, after⟩
    · rw [hwaited] at hwait
      exact hwait
    · rw [hwaited] at hwait
      simp only
      split <;> exact hwait

theorem selector_letRivals (rivals : List (JobId × RunnerId)) (b : Bench) :
    (b.letRivals rivals).selector = b.selector := by
  unfold letRivals
  induction rivals generalizing b with
  | nil => rfl
  | cons rival rivals ih => exact ih _

theorem selector_handOut (job : JobId) (runner : RunnerId) (b : Bench) :
    (b.handOut job runner).2.selector = b.selector := by
  unfold handOut
  split <;> rfl

theorem selector_claim (job : JobId) (runner : RunnerId) (b : Bench) :
    (b.claim job runner).2.selector = b.selector := by
  cases hclaims : b.parts.claims with
  | closedPool => simp only [claim, hclaims]
  | script script =>
    simp only [claim, hclaims]
    split
    · rw [selector_wait, selector_letRivals]
    · split
      · rw [selector_handOut, selector_wait, selector_letRivals]
      · change (wait _ _ _).2.selector = _
        rw [selector_wait, selector_letRivals]

/-- Whatever is asked of the bench, the selection stays as it is. -/
theorem selector_handle (q : Request) (b : Bench) : (handle q b).2.selector = b.selector := by
  cases q with
  | descendants root deadline => exact selector_lookUp _ _ _ _ b
  | projects ids deadline => exact selector_lookUp _ _ _ _ b
  | wait nanos deadline =>
    cases nanos with
    | none => rfl
    | some nanos => exact selector_wait nanos deadline b
  | claim job runner => exact selector_claim job runner b
  | _ => rfl

theorem selector_run {α : Type} (p : Program α) (b : Bench) :
    (p.run handle b).2.selector = b.selector := by
  induction p generalizing b with
  | done a => rfl
  | ask q next ih => exact (ih _ _).trans (selector_handle q b)

end Bench

/-- After a failed lookup, as with an empty scope, a poll comes to nothing and asks the queue for
nothing. An error in reading the projection leads to a second pass over the scan, if failover is on;
every other error of a pass is the result of the poll, and only such an error is. The selected
strategy stays what it is. -/
theorem Engine.failures_surface {engine : Engine} {runner : Runner} {options : PollOptions}
    {past : List Exchange} {report : Report PollOutcome} (hactive : runner.active = true)
    (h : (engine.poll runner options).Completes past report) :
    ∃ s : Stages, past = s.exchanges ∧ s.Of engine runner options report ∧
      ((∃ x ∈ past, x.failsLookup = true) ∨ s.scope.isEmpty = true →
        report.result = .ok .empty ∧ ∀ x ∈ past, x.request.isIdle = true) ∧
      past.filterMap Exchange.selected? = s.passes.head?.toList.map (·.strategy) ∧
      (∀ first rest, s.passes = first :: rest →
        (rest ≠ [] ↔ engine.failover = true ∧ first.strategy = .projection ∧
          ∃ e, first.FailsReading ⟨runner, s.cutoff⟩ (engine.deadline options s.start) e) ∧
        (rest ≠ [] → ∃ second, rest = [second] ∧ second.strategy = .directScan)) ∧
      (∀ p ∈ s.passes, p.Runs ⟨runner, s.cutoff⟩ (engine.deadline options s.start)) ∧
      (∀ before job claimant e after, past = before ++ ⟨.claim job claimant, .error e⟩ :: after →
        after = [] ∧ report.result = .error e) ∧
      (∀ e, report.result = .error e ↔ ∃ p, s.passes.getLast? = some p ∧
        (p.FailsReading ⟨runner, s.cutoff⟩ (engine.deadline options s.start) e ∨
          p.FailsClaiming e)) ∧
      (∀ b : Bench, ((engine.poll runner options).run Bench.handle b).2.selector = b.selector) ∧
      ∀ (kind : StrategyKind → StrategyKind) (initial : StrategyKind) (selector : Selector),
        Selector.make (kind .directScan) (kind .projection) initial = .ok selector →
        (∀ p ∈ s.passes, kind p.strategy = p.strategy) ∧
        ∀ first second, s.passes = [first, second] →
          kind second.strategy ≠ kind first.strategy := by
  obtain ⟨s, rfl, hs⟩ := Engine.poll_completes hactive h
  refine ⟨s, rfl, hs, ?_, hs.selected, ?_, hs.runs, fun _ _ _ _ _ ↦ hs.claim_refused, ?_,
    Bench.selector_run _, ?_⟩
  · intro hnone
    have hempty : s.scope.isEmpty = true := hnone.elim
      (fun ⟨x, hx, hfails⟩ ↦ hs.isEmpty_of_failsLookup ⟨x, hs.mem_lookups hx hfails, hfails⟩) id
    obtain ⟨hpasses, hresult⟩ := hs.empty hempty
    refine ⟨hresult, fun x hx ↦ ?_⟩
    rw [Stages.exchanges, hpasses, List.head?_nil, List.flatMap_nil] at hx
    rcases List.mem_cons.1 hx with rfl | hx
    · rfl
    · exact (hs.isIdle x (by simpa using hx)).1
  · intro first rest hpasses
    exact (hs.makes_of_passes hpasses).second_iff
  · intro e
    cases hempty : s.scope.isEmpty with
    | true => simp [hs.empty hempty]
    | false => exact (hs.makes hempty).error_iff e
  · intro kind initial selector hmake
    refine ⟨fun p _ ↦ Selector.kind_of_make hmake p.strategy, fun first second hpasses ↦ ?_⟩
    obtain ⟨hsecond, hscan⟩ := (hs.makes_of_passes hpasses).second_iff
    obtain ⟨-, hprojection, -⟩ := hsecond.1 (by simp)
    obtain ⟨_, heq, hscan⟩ := hscan (by simp)
    cases heq
    rw [Selector.kind_of_make hmake, Selector.kind_of_make hmake, hprojection, hscan]
    decide

/-- All parts work on the store. -/
def BenchParts.stored : BenchParts where
  directScan := .store
  projection := .store
  directory := .store
  claims := .script .plain

/-- A bench of these parts where the projection is selected and one build is pending. -/
def Bench.base (parts : BenchParts) : Bench where
  engine := ⟨true, .ofSeconds 30, .zero⟩
  selector := ⟨.projection, 0⟩
  parts
  store := .after [.putProject (.opened ⟨10⟩ ⟨1⟩), .enqueue ⟨⟨10⟩, .empty, false, default⟩]
  metrics := .zero
  clock := 0
  time := default
  attempts := []
  handedOut := .empty
  watchers := []
  snapshots := .empty

/-- A projection that cannot be read, and a build whose claim is answered with an error. -/
def Bench.brokenDown : Bench :=
  .base
    { BenchParts.stored with
      projection := .script .projection [.error (.backend "connection reset")] none
      claims := .script
        { ClaimScript.plain with errors := .insert .empty ⟨1⟩ (.backend "deadlock detected") } }

/-- The first error is recovered, the second one is the result. -/
theorem Engine.failures_surface_brokenDown :
    let b := Bench.brokenDown
    let runner : Runner := ⟨⟨7⟩, .everything, .empty, true, true, true⟩
    let options : PollOptions := ⟨none, some default⟩
    let poll := b.engine.poll runner options
    let past := poll.transcript Bench.handle b
    let report := (poll.run Bench.handle b).1
    let refusal : QueueError := .backend "deadlock detected"
    runner.active = true ∧ poll.Completes past report ∧ report.result = .error refusal ∧
    ∃ s : Stages, past = s.exchanges ∧ s.Of b.engine runner options report ∧
      s.passes.head?.toList.map (·.strategy) = [.projection] ∧
      (∃ p, s.passes.getLast? = some p ∧
        (p.FailsReading ⟨runner, s.cutoff⟩ (b.engine.deadline options s.start) refusal ∨
          p.FailsClaiming refusal)) ∧
      (poll.run Bench.handle b).2.selector = b.selector := by
  intro b runner options poll past report refusal
  have hpoll : poll.Completes past report := Program.completes_run Bench.handle poll b
  have hresult : report.result = .error refusal := by decide +kernel
  have hselected : past.filterMap Exchange.selected? = [.projection] := by decide +kernel
  obtain ⟨s, hpast, hs, -, honce, -, -, -, herror, hkeeps, -⟩ :=
    Engine.failures_surface rfl hpoll
  exact ⟨rfl, hpoll, hresult, s, hpast, hs, honce.symm.trans hselected, (herror refusal).1 hresult,
    hkeeps b⟩

end BuildQueue
