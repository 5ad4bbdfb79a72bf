import BuildQueue.Proofs.Engine.Failures
import Mathlib.Algebra.Order.BigOperators.Group.List
import Mathlib.Algebra.Order.Ring.Nat

/-!
# Poll accounting

Every poll that is counted is counted once as what it came to. If its runner was paused, a lookup
failed or the deadline was met, it came to nothing and is counted once more, as just that. So the
counters of an engine balance. A registration without exactly one scope is no poll, and counting
builds changes no counter but that of failovers.
-/

namespace BuildQueue

/-! ## Counters -/

inductive Counter where
  | polls
  | assigned
  | empty
  | conflicts
  | paused
  | scopeFailures
  | failovers
  | timeouts
  deriving DecidableEq

namespace Metrics

def read (m : Metrics) : Counter → UInt64
  | .polls => m.polls
  | .assigned => m.assigned
  | .empty => m.empty
  | .conflicts => m.conflicts
  | .paused => m.paused
  | .scopeFailures => m.scopeFailures
  | .failovers => m.failovers
  | .timeouts => m.timeouts

@[simp] theorem read_zero (c : Counter) : zero.read c = 0 := by cases c <;> rfl

@[simp] theorem read_add (a b : Metrics) (c : Counter) :
    (a + b).read c = a.read c + b.read c := by cases c <;> rfl

end Metrics

/-! ## What a poll counts -/

/-- How a poll ends. -/
inductive PollEnding where
  | assigned
  | empty
  | failed
  deriving DecidableEq

def Report.ending (report : Report PollOutcome) : PollEnding :=
  match report.result with
  | .ok (.assigned _) => .assigned
  | .ok .empty => .empty
  | .error _ => .failed

/-- Once its deadline is fixed, a poll meets it in a lookup or in a pass. -/
def Engine.meetsDeadline (engine : Engine) (options : PollOptions) : List Exchange → Bool
  | ⟨.tick, start⟩ :: later =>
    later.any fun x ↦ x.isLookupTimeout || x.isLate (engine.deadline options start)
  | _ => false

/-- The queue was read, and then read once more. -/
def readsAgain (past : List Exchange) : Bool := 1 < past.countP (·.request.readsQueue)

/-- What a poll counts: itself, how it ended, why it came to nothing, a failover if it read the
queue again, and what its last pass lost unless this pass failed. There is at most one reason to
come to nothing, and without a failover there was no pass before the last one. -/
structure Report.Tallies (engine : Engine) (runner : Runner) (options : PollOptions)
    (past : List Exchange) (report : Report PollOutcome) : Prop where
  polls : report.metrics.polls = 1
  assigned : report.metrics.assigned = if report.ending = .assigned then 1 else 0
  empty : report.metrics.empty = if report.ending = .empty then 1 else 0
  paused : report.metrics.paused = if runner.active then 0 else 1
  scopeFailures : report.metrics.scopeFailures = if past.any Exchange.isLookupError then 1 else 0
  timeouts : report.metrics.timeouts = if engine.meetsDeadline options past then 1 else 0
  reason : report.metrics.paused.toNat + report.metrics.scopeFailures.toNat +
    report.metrics.timeouts.toNat ≤ report.metrics.empty.toNat
  failovers : report.metrics.failovers = if readsAgain past then 1 else 0
  conflicts : report.metrics.conflicts =
    if report.ending = .failed then 0 else .ofNat (lostIn (lastPass past))
  only_pass : report.metrics.failovers = 0 → lostIn (beforeLastPass past) = 0

section Polls

variable {engine : Engine} {runner : Runner} {options : PollOptions} {past : List Exchange}
  {report : Report PollOutcome} {s : Stages}

theorem readsAgain_eq_false (h : past.countP (·.request.readsQueue) ≤ 1) :
    readsAgain past = false := decide_eq_false (Nat.not_lt_of_le h)

namespace Report.Tallies

/-- A poll that reads no snapshot comes to nothing. -/
theorem of_nothing_read (hlost : lostIn past = 0)
    (hreads : past.countP (·.request.readsQueue) = 0) {reason : Metrics}
    (hreason : reason =
      { Metrics.zero with
        paused := if runner.active then 0 else 1
        scopeFailures := if past.any Exchange.isLookupError then 1 else 0
        timeouts := if engine.meetsDeadline options past then 1 else 0 })
    (hone : reason.paused.toNat + reason.scopeFailures.toNat + reason.timeouts.toNat ≤ 1) :
    (Report.emptyPoll reason).Tallies engine runner options past := by
  have hsplit := lostIn_split past
  have hlast : lostIn (lastPass past) = 0 := by omega
  have hbefore : lostIn (beforeLastPass past) = 0 := by omega
  have hagain : readsAgain past = false := readsAgain_eq_false (by omega)
  have hmetrics : (Report.emptyPoll reason).metrics = { reason with polls := 1, empty := 1 } := by
    subst hreason
    ext1 <;> first | rfl | exact UInt64.zero_add _
  constructor <;> rw [hmetrics]
  case reason => exact hone
  case failovers => rw [hreason, hagain]; rfl
  case conflicts => rw [hreason, hlast]; rfl
  case only_pass => exact fun _ ↦ hbefore
  case assigned => rw [hreason]; rfl
  all_goals first | rfl | rw [hreason]

/-- A poll counts as what its last pass came to. -/
theorem of_pass {pass : ClaimPass} {failovers : UInt64} (hactive : runner.active = true)
    (herror : past.any Exchange.isLookupError = false)
    (hlate : engine.meetsDeadline options past = pass.isTimedOut)
    (hfailovers : failovers = if readsAgain past then 1 else 0)
    (hskipped : ∀ result, pass = .ok result → result.skipped = lostIn (lastPass past))
    (honly : failovers = 0 → lostIn (beforeLastPass past) = 0) :
    (pass.report failovers).Tallies engine runner options past := by
  have hpaused : (0 : UInt64) = if runner.active then 0 else 1 := by
    rw [hactive]
    rfl
  have hfailed : (0 : UInt64) = if past.any Exchange.isLookupError then 1 else 0 := by
    rw [herror]
    rfl
  have htimeouts : (if pass.isTimedOut then 1 else 0 : UInt64) =
      if engine.meetsDeadline options past then 1 else 0 := by rw [hlate]
  have hcount (result : ClaimResult) (hpass : pass = .ok result) :
      UInt64.ofNat result.skipped = .ofNat (lostIn (lastPass past)) :=
    congrArg UInt64.ofNat (hskipped result hpass)
  have hzero (n : UInt64) : 0 + n = n := UInt64.zero_add n
  rcases pass with failure | a | skipped | skipped
  · exact ⟨rfl, rfl, rfl, hpaused, hfailed, htimeouts, Nat.zero_le _, hfailovers, rfl, honly⟩
  · exact ⟨rfl, rfl, rfl, hpaused, hfailed, htimeouts, Nat.zero_le _, hfailovers, hcount _ rfl,
      honly⟩
  · exact ⟨rfl, rfl, rfl, hpaused, hfailed, htimeouts, Nat.zero_le _, (hzero _).trans hfailovers,
      (hzero _).trans (hcount _ rfl), fun hnone ↦ honly ((hzero _).symm.trans hnone)⟩
  · exact ⟨rfl, rfl, rfl, hpaused, hfailed, htimeouts, Nat.le_refl 1, (hzero _).trans hfailovers,
      (hzero _).trans (hcount _ rfl), fun hnone ↦ honly ((hzero _).symm.trans hnone)⟩

end Report.Tallies

/-! ## What the stages of a poll come to -/

theorem any_congr_mem {α : Type} {xs : List α} {p q : α → Bool} (h : ∀ x ∈ xs, p x = q x) :
    xs.any p = xs.any q := by
  rw [Bool.eq_iff_iff, List.any_eq_true, List.any_eq_true]
  exact exists_congr fun x ↦ and_congr_right fun hx ↦ by rw [h x hx]

namespace Stages

/-- Only a lookup for the scope is answered with an error of the directory. -/
theorem Of.any_isLookupError (h : s.Of engine runner options report) :
    s.exchanges.any Exchange.isLookupError = s.resolution.isFailed := by
  rw [← (RunnerScope.resolve_lookups h.resolution).1, Bool.eq_iff_iff, List.any_eq_true,
    List.any_eq_true]
  refine exists_congr fun x ↦ and_congr_left fun hx ↦
    ⟨fun hmem ↦ h.mem_lookups hmem ?_, fun hmem ↦ ?_⟩
  · rw [x.failsLookup_eq, hx]
    rfl
  · simp [exchanges, hmem]

/-- The deadline is met in a lookup for the scope, or in a pass that times out. -/
theorem Of.meetsDeadline (h : s.Of engine runner options report) :
    engine.meetsDeadline options s.exchanges =
      (s.resolution.isTimedOut || s.passes.any (·.result.isTimedOut)) := by
  let isLate (x : Exchange) : Bool :=
    x.isLookupTimeout || x.isLate (engine.deadline options s.start)
  have hreadings : s.readings.any isLate = false := by
    refine List.any_eq_false.2 fun ⟨q, reply⟩ hx ↦ ?_
    obtain rfl : q = .wallClock := h.readings _ hx
    exact Bool.false_ne_true
  have hlookups : s.lookups.any isLate = s.resolution.isTimedOut := by
    rw [← (RunnerScope.resolve_lookups h.resolution).2]
    refine any_congr_mem fun ⟨q, reply⟩ hx ↦ ?_
    have hq : q.IsLookup _ := h.lookups _ hx
    cases q with
    | descendants | projects => exact Bool.or_false _
    | _ => exact hq.elim
  have hselection : (s.passes.head?.toList.map fun p ↦
      Exchange.mk .selection p.strategy).any isLate = false := by
    cases s.passes <;> rfl
  have hpass (p : Pass) (hp : p ∈ s.passes) :
      (p.exchanges s.scope s.cutoff).any isLate = p.result.isTimedOut := by
    rw [← (h.runs p hp).isLate]
    refine (Bool.false_or _).trans (any_congr_mem fun x hx ↦ ?_)
    have hpassing := (h.isPassing hp x (List.mem_cons_of_mem _ hx)).2
    rw [x.failsLookup_eq, Bool.or_eq_false_iff] at hpassing
    exact (congrArg (· || _) hpassing.2).trans (Bool.false_or _)
  change (s.readings ++ (s.lookups ++ (_ ++ _))).any isLate = _
  rw [List.any_append, hreadings, Bool.false_or, List.any_append, hlookups, List.any_append,
    hselection, Bool.false_or, List.any_flatMap, any_congr_mem hpass]

/-- The queue is read once for each pass. -/
theorem Of.countP_readsQueue (h : s.Of engine runner options report) :
    s.exchanges.countP (·.request.readsQueue) = s.passes.length := by
  have hfront : s.front.countP (·.request.readsQueue) = 0 :=
    List.countP_eq_zero.2 fun x hx ↦ by simp [(h.front x hx).2]
  have hpass (p : Pass) (hp : p ∈ s.passes) :
      (p.exchanges s.scope s.cutoff).countP (·.request.readsQueue) = 1 := by
    have hmade : p.made.countP (·.request.readsQueue) = 0 :=
      List.countP_eq_zero.2 fun x hx ↦ by simp [(h.runs p hp).readsQueue x hx]
    rw [Pass.exchanges, List.countP_cons_of_pos rfl, hmade]
  calc
    _ = (s.passes.flatMap (Pass.exchanges s.scope s.cutoff)).countP (·.request.readsQueue) := by
      rw [s.exchanges_eq, List.countP_append, hfront, Nat.zero_add]
    _ = (s.passes.map fun _ ↦ 1).sum := by
      rw [List.countP_flatMap]
      exact congrArg List.sum (List.map_congr_left hpass)
    _ = s.passes.length := by simp

/-- Nothing is lost before the first pass. -/
theorem Of.lostIn_front (h : s.Of engine runner options report) : lostIn s.front = 0 :=
  lostIn_of_isIdle fun x hx ↦ (h.front x hx).1

/-- Where no project is in scope, a poll counts as what the lookups came to. -/
theorem Of.tallies_of_isEmpty (h : s.Of engine runner options report)
    (hactive : runner.active = true) (hempty : s.scope.isEmpty = true) :
    report.Tallies engine runner options s.exchanges := by
  obtain ⟨hpasses, hresult⟩ := h.empty hempty
  have hmetrics := h.reason hempty
  obtain rfl : report = .emptyPoll s.resolution.reason := by
    obtain ⟨result, metrics⟩ := report
    rw [Report.emptyPoll, ← hmetrics, ← hresult]
  have herror := h.any_isLookupError
  have hlate := h.meetsDeadline
  have hreads := h.countP_readsQueue
  have hlost : lostIn s.exchanges = 0 := by
    rw [s.exchanges_eq, hpasses, List.flatMap_nil, List.append_nil]
    exact h.lostIn_front
  rw [hpasses] at hlate hreads
  refine .of_nothing_read hlost hreads ?_ ?_
  · rw [hactive, herror, hlate]
    cases s.resolution <;> rfl
  · cases s.resolution with
    | scope => exact Nat.zero_le 1
    | failed | timedOut => exact Nat.le_refl 1

/-- Where projects are in scope, a poll counts as what its last pass came to. -/
theorem Of.tallies_of_passes (h : s.Of engine runner options report)
    (hactive : runner.active = true) (hempty : s.scope.isEmpty = false) :
    report.Tallies engine runner options s.exchanges := by
  obtain ⟨found, hfound⟩ := Resolution.eq_scope_of_isEmpty hempty
  have herror := h.any_isLookupError
  have hlate := h.meetsDeadline
  have hreads := h.countP_readsQueue
  rw [hfound] at herror hlate
  have hmakes := h.makes hempty
  have hexchanges := s.exchanges_eq
  generalize s.passes = passes at hmakes hlate hreads hexchanges
  cases hmakes with
  | @one p hruns hstays =>
    rw [List.flatMap_singleton] at hexchanges
    obtain ⟨hlast, hbefore⟩ := hruns.lastPass s.front s.scope s.cutoff
    rw [← hexchanges] at hlast hbefore
    refine .of_pass hactive herror ?_ ?_ (fun result hresult ↦ ?_) fun _ ↦ ?_
    · simpa [Resolution.isTimedOut] using hlate
    · rw [readsAgain_eq_false (Nat.le_of_eq hreads)]
      rfl
    · rw [hlast, hruns.skipped hresult]
    · rw [hbefore, lostIn_append, h.lostIn_front]
      rfl
  | @two first second e hfirst hfails hover hsecond hscan =>
    have hresult := hfirst.failsReading_iff.1 hfails
    have hsplit : s.exchanges = s.front ++ first.exchanges s.scope s.cutoff ++
        second.exchanges s.scope s.cutoff := by simpa using hexchanges
    obtain ⟨hlast, -⟩ := hsecond.lastPass (s.front ++ first.exchanges s.scope s.cutoff) s.scope
      s.cutoff
    rw [← hsplit] at hlast
    refine .of_pass hactive herror ?_ ?_ (fun result hresult ↦ ?_) fun hzero ↦ ?_
    · simpa [Resolution.isTimedOut, hresult, ClaimPass.isTimedOut] using hlate
    · simp [readsAgain, hreads]
    · rw [hlast, hsecond.skipped hresult]
    · exact absurd hzero (by decide)

end Stages

theorem Engine.poll_tallies (engine : Engine) {runner : Runner} {options : PollOptions}
    {past : List Exchange} {report : Report PollOutcome}
    (h : (engine.poll runner options).Completes past report) :
    report.Tallies engine runner options past := by
  cases hactive : runner.active with
  | false =>
    rw [poll_of_paused engine options hactive] at h
    obtain ⟨rfl, rfl⟩ := Program.completes_done.1 h
    refine .of_nothing_read rfl rfl ?_ (Nat.le_refl 1)
    rw [hactive]
    rfl
  | true =>
    obtain ⟨s, rfl, hs⟩ := Engine.poll_completes hactive h
    cases hempty : s.scope.isEmpty with
    | true => exact hs.tallies_of_isEmpty hactive hempty
    | false => exact hs.tallies_of_passes hactive hempty

/-- After idle requests that do not read the queue, its length is asked for at most twice, and the
second time is counted. -/
theorem Engine.queueDepth_completes {report : Report Nat}
    (h : (engine.queueDepth runner).Completes past report) : ∃ front asked, past = front ++ asked ∧
      (∀ x ∈ front, x.request.isIdle = true ∧ x.request.readsQueue = false) ∧
      (∀ x ∈ asked, x.request.isIdle = true) ∧
      report.metrics = { Metrics.zero with failovers := if readsAgain asked then 1 else 0 } := by
  obtain ⟨lookups, resolution, later, rfl, hresolve, hcount⟩ := Program.completes_bind.1 h
  have hlookups := hresolve.forall_may (resolve_isIdle runner.scope none)
  by_cases hempty : resolution.scopeOrEmpty.isEmpty = true
  · simp only [if_pos hempty] at hcount
    obtain ⟨rfl, rfl⟩ := Program.completes_done.1 hcount
    exact ⟨lookups, [], rfl, hlookups, by simp, rfl⟩
  · simp only [if_neg hempty] at hcount
    obtain ⟨readings, cutoff, later, rfl, hcutoff, hselect⟩ := Program.completes_bind.1 hcount
    obtain ⟨strategy, later, rfl, hdepth⟩ := Program.completes_ask.1 hselect
    change (Program.request _ >>= _).Completes later report at hdepth
    obtain ⟨reply, later, rfl, hend⟩ := Program.completes_ask.1 hdepth
    have hreadings := hcutoff.forall_may (engine.cutoff_isIdle none)
    refine ⟨lookups ++ readings, _, (List.append_assoc ..).symm,
      fun x hx ↦ (List.mem_append.1 hx).elim (hlookups x) (hreadings x), ?_⟩
    cases reply with
    | ok n =>
      obtain ⟨rfl, rfl⟩ := Program.completes_done.1 hend
      exact ⟨by simp [Request.isIdle], rfl⟩
    | error e =>
      by_cases hover : engine.canFailOver strategy = true
      · simp only [if_pos hover] at hend
        obtain ⟨reply, later, rfl, hagain⟩ := Program.completes_ask.1 hend
        obtain ⟨rfl, rfl⟩ := Program.completes_done.1 hagain
        exact ⟨by simp [Request.isIdle], rfl⟩
      · simp only [if_neg hover] at hend
        obtain ⟨rfl, rfl⟩ := Program.completes_done.1 hend
        exact ⟨by simp [Request.isIdle], rfl⟩

/-- Counting builds loses none, and counts a failover if it reads the queue again. -/
theorem Engine.queueDepth_tallies {report : Report Nat}
    (h : (engine.queueDepth runner).Completes past report) : lostIn past = 0 ∧
      report.metrics = { Metrics.zero with failovers := if readsAgain past then 1 else 0 } := by
  obtain ⟨front, asked, rfl, hfront, hasked, hmetrics⟩ := queueDepth_completes h
  have hagain : readsAgain (front ++ asked) = readsAgain asked := by
    have hzero : front.countP (·.request.readsQueue) = 0 :=
      List.countP_eq_zero.2 fun x hx ↦ by simp [(hfront x hx).2]
    rw [readsAgain, List.countP_append, hzero, Nat.zero_add, readsAgain]
  refine ⟨lostIn_of_isIdle fun x hx ↦ ?_, hagain ▸ hmetrics⟩
  exact (List.mem_append.1 hx).elim (fun hx ↦ (hfront x hx).1) (hasked x)

end Polls

/-! ## Completed calls -/

namespace Registration

/-- How many of the three scopes a registration declares. -/
def declared (reg : Registration) : Nat :=
  reg.everything.toNat + reg.group.toList.length + (!reg.projects.isEmpty).toNat

variable {reg : Registration}

theorem length_scopes (reg : Registration) : reg.scopes.length = reg.declared := by
  unfold scopes declared
  cases reg.everything <;> cases reg.projects <;> simp [Nat.add_comm]

theorem runner_of_declared (h : reg.declared = 1) : ∃ runner, reg.runner = .ok runner := by
  rw [← length_scopes, List.length_eq_one_iff] at h
  obtain ⟨scope, hscopes⟩ := h
  unfold runner Registration.scope
  rw [hscopes]
  exact ⟨_, rfl⟩

theorem runner_refused (h : reg.declared ≠ 1) :
    ∃ why, reg.runner = .error (.invalidScope why) := by
  rw [← length_scopes] at h
  unfold runner scope
  match hscopes : reg.scopes with
  | [] => exact ⟨_, rfl⟩
  | [scope] =>
    rw [hscopes] at h
    exact absurd rfl h
  | scope :: other :: scopes => exact ⟨_, rfl⟩

end Registration

/-- A call of an engine with what it was replied and what it came to. -/
inductive CompletedCall (engine : Engine) where
  | polled (runner : Runner) (options : PollOptions) (past : List Exchange)
    (report : Report PollOutcome) (h : (engine.poll runner options).Completes past report)
  | registered (reg : Registration) (options : PollOptions) (past : List Exchange)
    (report : Report PollOutcome) (h : (engine.pollRegistration reg options).Completes past report)
  | counted (runner : Runner) (past : List Exchange) (report : Report Nat)
    (h : (engine.queueDepth runner).Completes past report)

namespace CompletedCall

variable {engine : Engine}

def past : CompletedCall engine → List Exchange
  | .polled _ _ past _ _ => past
  | .registered _ _ past _ _ => past
  | .counted _ past _ _ => past

def metrics : CompletedCall engine → Metrics
  | .polled _ _ _ report _ => report.metrics
  | .registered _ _ _ report _ => report.metrics
  | .counted _ _ report _ => report.metrics

/-- How a poll ended; a registration without exactly one scope is no poll. -/
def ending? : CompletedCall engine → Option PollEnding
  | .polled _ _ _ report _ => some report.ending
  | .registered reg _ _ report _ => if reg.declared = 1 then some report.ending else none
  | .counted .. => none

/-- The claims of a call that were given nothing. -/
def lost (call : CompletedCall engine) : Nat := lostIn call.past

/-- Whose poll this was, and with which options; a registration without exactly one scope is no
poll. -/
def poll? : CompletedCall engine → Option (Runner × PollOptions)
  | .polled runner options _ _ _ => some (runner, options)
  | .registered reg options _ _ _ => reg.runner.toOption.map (·, options)
  | .counted .. => none

/-- Whether a call is one of those that a counter counts. Conflicts are no calls. -/
def countsAs (call : CompletedCall engine) : Counter → Bool
  | .polls => call.ending?.isSome
  | .assigned => call.ending? = some .assigned
  | .empty => call.ending? = some .empty
  | .conflicts => false
  | .paused => call.poll?.any fun poll ↦ !poll.1.active
  | .scopeFailures => call.poll?.isSome && call.past.any Exchange.isLookupError
  | .failovers => readsAgain call.past
  | .timeouts => call.poll?.any fun poll ↦ engine.meetsDeadline poll.2 call.past

/-- What is known of a call by what it came to. -/
def Tallies : CompletedCall engine → Prop
  | .polled runner options past report _ => report.Tallies engine runner options past
  | .registered reg options past report _ =>
    if reg.declared = 1 then
      ∃ runner, reg.runner = .ok runner ∧ report.Tallies engine runner options past
    else past = [] ∧ report.metrics = .zero ∧ ∃ why, report.result = .error (.invalidScope why)
  | .counted _ past report _ => lostIn past = 0 ∧
    report.metrics = { Metrics.zero with failovers := if readsAgain past then 1 else 0 }

theorem tallies (call : CompletedCall engine) : call.Tallies := by
  cases call with
  | polled runner options past report h => exact engine.poll_tallies h
  | counted runner past report h => exact engine.queueDepth_tallies h
  | registered reg options past report h =>
    unfold Engine.pollRegistration at h
    by_cases hdeclared : reg.declared = 1
    · obtain ⟨runner, hrunner⟩ := Registration.runner_of_declared hdeclared
      rw [hrunner] at h
      change if reg.declared = 1 then _ else _
      rw [if_pos hdeclared]
      exact ⟨runner, hrunner, engine.poll_tallies h⟩
    · obtain ⟨why, hrunner⟩ := Registration.runner_refused hdeclared
      rw [hrunner] at h
      change if reg.declared = 1 then _ else _
      rw [if_neg hdeclared]
      cases h
      exact ⟨rfl, rfl, why, rfl⟩

/-- A call that is no poll loses nothing and counts at most a failover; any other counts as a
poll. -/
theorem tallies_cases (call : CompletedCall engine) :
    (call.ending? = none ∧ call.poll? = none ∧ call.lost = 0 ∧
      call.metrics = { Metrics.zero with failovers := if readsAgain call.past then 1 else 0 }) ∨
    ∃ (runner : Runner) (options : PollOptions) (report : Report PollOutcome),
      call.ending? = some report.ending ∧ call.poll? = some (runner, options) ∧
      call.metrics = report.metrics ∧
      report.Tallies engine runner options call.past := by
  have h := call.tallies
  cases call with
  | polled runner options past report _ => exact .inr ⟨runner, options, report, rfl, rfl, rfl, h⟩
  | counted runner past report _ => exact .inl ⟨rfl, rfl, h⟩
  | registered reg options past report _ =>
    unfold ending? poll?
    by_cases hdeclared : reg.declared = 1
    · simp only [Tallies, if_pos hdeclared] at h ⊢
      obtain ⟨runner, hrunner, h⟩ := h
      rw [hrunner]
      exact .inr ⟨runner, options, report, rfl, rfl, rfl, h⟩
    · simp only [Tallies, if_neg hdeclared] at h ⊢
      obtain ⟨why, hrunner⟩ := Registration.runner_refused hdeclared
      obtain ⟨rfl, hmetrics, -⟩ := h
      rw [hrunner]
      exact .inl ⟨trivial, rfl, rfl, hmetrics⟩

end CompletedCall

/-! ## Sums over calls -/

/-- What an engine has counted after some calls. -/
def Metrics.after {engine : Engine} (history : List (CompletedCall engine)) : Metrics :=
  history.foldl (fun m call ↦ m + call.metrics) .zero

namespace CompletedCall

variable {engine : Engine}

/-- The calls themselves and every claim that was given nothing. -/
def events (history : List (CompletedCall engine)) : Nat :=
  (history.map fun call ↦ 1 + call.lost).sum

/-- What the calls count under a counter, as a number of any size. -/
def total (history : List (CompletedCall engine)) (c : Counter) : Nat :=
  (history.map fun call ↦ (call.metrics.read c).toNat).sum

/-- A call adds one to the counters that count it, and to no other but that of conflicts. -/
theorem read_eq (call : CompletedCall engine) {c : Counter} (hc : c ≠ .conflicts) :
    (call.metrics.read c).toNat = (call.countsAs c).toNat := by
  have htoNat (p : Prop) [Decidable p] :
      (if p then 1 else 0 : UInt64).toNat = (decide p).toNat := by
    by_cases hp : p <;> simp [hp]
  rcases call.tallies_cases with
    ⟨hending, hpoll, -, hmetrics⟩ | ⟨runner, options, report, hending, hpoll, hmetrics, h⟩
  · rw [hmetrics]
    cases c with
    | conflicts => exact absurd rfl hc
    | failovers => simp [countsAs, Metrics.read, htoNat]
    | _ => simp [countsAs, hending, hpoll, Metrics.read, Metrics.zero]
  · rw [hmetrics]
    cases c with
    | polls => simp [countsAs, hending, Metrics.read, h.polls]
    | assigned => simp [countsAs, hending, Metrics.read, h.assigned, htoNat]
    | empty => simp [countsAs, hending, Metrics.read, h.empty, htoNat]
    | conflicts => exact absurd rfl hc
    | paused =>
      cases hactive : runner.active <;> simp [countsAs, hpoll, Metrics.read, h.paused, hactive]
    | scopeFailures =>
      simp [countsAs, hpoll, Metrics.read, h.scopeFailures, htoNat, -List.any_eq_true]
    | failovers => simp [countsAs, Metrics.read, h.failovers, htoNat]
    | timeouts => simp [countsAs, hpoll, Metrics.read, h.timeouts, htoNat]

theorem read_le (call : CompletedCall engine) (c : Counter) :
    (call.metrics.read c).toNat ≤ 1 + call.lost := by
  by_cases hc : c = .conflicts
  · subst hc
    have hsplit : call.lost = lostIn (beforeLastPass call.past) + lostIn (lastPass call.past) :=
      lostIn_split call.past
    rcases call.tallies_cases with ⟨-, -, -, hmetrics⟩ | ⟨_, _, report, -, -, hmetrics, h⟩
    · rw [hmetrics]
      exact Nat.zero_le _
    · rw [hmetrics]
      change report.metrics.conflicts.toNat ≤ _
      rw [h.conflicts]
      split
      · exact Nat.zero_le _
      · have hmod := Nat.mod_le (lostIn (lastPass call.past)) (2 ^ 64)
        rw [UInt64.toNat_ofNat']
        omega
  · have hone := Bool.toNat_le (call.countsAs c)
    rw [call.read_eq hc]
    omega

theorem total_le_events (history : List (CompletedCall engine)) (c : Counter) :
    total history c ≤ events history :=
  List.sum_le_sum fun call _ ↦ call.read_le c

theorem total_append (earlier later : List (CompletedCall engine)) (c : Counter) :
    total (earlier ++ later) c = total earlier c + total later c := by
  unfold total
  rw [List.map_append, List.sum_append]

theorem events_append (earlier later : List (CompletedCall engine)) :
    events (earlier ++ later) = events earlier + events later := by
  unfold events
  rw [List.map_append, List.sum_append]

theorem after_append (earlier : List (CompletedCall engine)) (call : CompletedCall engine) :
    Metrics.after (earlier ++ [call]) = Metrics.after earlier + call.metrics := by
  unfold Metrics.after
  rw [List.foldl_append]
  rfl

/-- With few events no counter wraps around. -/
theorem toNat_read_after {history : List (CompletedCall engine)} (h : events history < 2 ^ 64)
    (c : Counter) : ((Metrics.after history).read c).toNat = total history c := by
  induction history using List.reverseRecOn with
  | nil =>
    change (Metrics.zero.read c).toNat = 0
    rw [Metrics.read_zero]
    rfl
  | append_singleton history call ih =>
    have hsum := total_le_events (history ++ [call]) c
    rw [events_append] at h hsum
    have hlast : total [call] c = (call.metrics.read c).toNat := List.sum_singleton
    rw [total_append, hlast] at hsum ⊢
    rw [after_append, Metrics.read_add, UInt64.toNat_add, ih (by omega)]
    exact Nat.mod_eq_of_lt (by omega)

/-- A poll ends in one of three ways. -/
theorem countsAs_polls (call : CompletedCall engine) :
    (call.countsAs .polls).toNat = (call.countsAs .assigned).toNat +
      (call.countsAs .empty).toNat + (decide (call.ending? = some .failed)).toNat := by
  unfold countsAs
  rcases call.ending? with _ | ending
  · rfl
  · cases ending <;> rfl

/-- A poll comes to nothing for at most one of three reasons. -/
theorem countsAs_reason (call : CompletedCall engine) :
    (call.countsAs .paused).toNat + (call.countsAs .scopeFailures).toNat +
      (call.countsAs .timeouts).toNat ≤ (call.countsAs .empty).toNat := by
  have hread {c : Counter} (hc : c ≠ .conflicts) := call.read_eq hc
  rw [← hread (by decide), ← hread (by decide), ← hread (by decide), ← hread (by decide)]
  rcases call.tallies_cases with ⟨-, -, -, hmetrics⟩ | ⟨_, _, report, -, -, hmetrics, h⟩
  · rw [hmetrics]
    exact Nat.le_refl 0
  · rw [hmetrics]
    exact h.reason

theorem total_eq_countP (history : List (CompletedCall engine)) {c : Counter}
    (hc : c ≠ .conflicts) : total history c = history.countP (·.countsAs c) := by
  unfold total
  induction history with
  | nil => rfl
  | cons call history ih =>
    rw [List.map_cons, List.sum_cons, ih, List.countP_cons, call.read_eq hc, Nat.add_comm]
    cases call.countsAs c <;> rfl

theorem countP_balance (history : List (CompletedCall engine)) :
    history.countP (·.countsAs .polls) = history.countP (·.countsAs .assigned) +
      history.countP (·.countsAs .empty) + history.countP (·.ending? = some .failed) ∧
    history.countP (·.countsAs .paused) + history.countP (·.countsAs .scopeFailures) +
      history.countP (·.countsAs .timeouts) ≤ history.countP (·.countsAs .empty) := by
  have hite (b : Bool) : (if b = true then 1 else 0) = b.toNat := by cases b <;> rfl
  induction history with
  | nil => exact ⟨rfl, Nat.le_refl 0⟩
  | cons call history ih =>
    have hpolls := call.countsAs_polls
    have hreason := call.countsAs_reason
    simp only [List.countP_cons, hite]
    omega

end CompletedCall

/-- However the calls of an engine were replied to, its counters balance as long as none of them
wraps around, and none ever goes back. Each counter but that of conflicts is the number of the calls
that it counts; a poll that comes to nothing does so for at most one of three reasons. -/
theorem Engine.accounting_balances (engine : Engine) (history : List (CompletedCall engine))
    (hfew : CompletedCall.events history < 2 ^ 64) :
    let m := Metrics.after history
    m.polls.toNat = m.assigned.toNat + m.empty.toNat +
        history.countP (·.ending? = some .failed) ∧
    m.assigned.toNat = history.countP (·.ending? = some .assigned) ∧
    m.paused.toNat + m.scopeFailures.toNat + m.timeouts.toNat ≤ m.empty.toNat ∧
    (∀ c, c ≠ .conflicts → (m.read c).toNat = history.countP (·.countsAs c)) ∧
    (∀ call ∈ history, (call.countsAs .paused).toNat + (call.countsAs .scopeFailures).toNat +
      (call.countsAs .timeouts).toNat ≤ (call.countsAs .empty).toNat) ∧
    (∀ call ∈ history, call.Tallies) ∧
    ∀ earlier later, history = earlier ++ later →
      ∀ c, (Metrics.after earlier).read c ≤ m.read c := by
  intro m
  have htotal (c : Counter) : (m.read c).toNat = CompletedCall.total history c :=
    CompletedCall.toNat_read_after hfew c
  have hread (c : Counter) (hc : c ≠ .conflicts) :
      (m.read c).toNat = history.countP (·.countsAs c) :=
    (htotal c).trans (CompletedCall.total_eq_countP history hc)
  obtain ⟨hpolls, hreasons⟩ := CompletedCall.countP_balance history
  rw [← hread _ (by decide), ← hread _ (by decide), ← hread _ (by decide)] at hpolls
  rw [← hread _ (by decide), ← hread _ (by decide), ← hread _ (by decide),
    ← hread _ (by decide)] at hreasons
  refine ⟨hpolls, hread .assigned (by decide), hreasons, hread, fun call _ ↦ call.countsAs_reason,
    fun call _ ↦ call.tallies, ?_⟩
  rintro earlier later rfl c
  rw [CompletedCall.events_append] at hfew
  rw [UInt64.le_iff_toNat_le, htotal, CompletedCall.total_append,
    CompletedCall.toNat_read_after (by omega)]
  exact Nat.le_add_right _ _

/-- Parts whose projection shows these items, and has no depth. -/
def BenchParts.projecting (items : List ScriptItem) : BenchParts :=
  { BenchParts.stored with
    projection := .script .projection items (some (.error (.backend "connection reset"))) }

/-- Parts whose directory answers after some nanoseconds, and maybe with an error. -/
def BenchParts.lookingUp (nanos : Nat) (error : Option QueueError) : BenchParts :=
  { BenchParts.stored with directory := .script nanos none error }

namespace CompletedCall

/-- A poll on a bench of these parts. -/
def polledOn (parts : BenchParts) (scope : RunnerScope) (active : Bool) :
    CompletedCall (Bench.base .stored).engine :=
  .polled ⟨⟨7⟩, scope, .empty, true, true, active⟩ ⟨none, some default⟩ _ _
    (Program.completes_run Bench.handle _ (.base parts))

/-- A poll of a registration that declares all projects, or no scope at all. -/
def registeredOn (parts : BenchParts) (everything : Bool) :
    CompletedCall (Bench.base .stored).engine :=
  .registered ⟨⟨7⟩, [], true, true, everything, none, [], true⟩ ⟨none, some default⟩ _ _
    (Program.completes_run Bench.handle _ (.base parts))

def countedOn (parts : BenchParts) : CompletedCall (Bench.base .stored).engine :=
  .counted ⟨⟨7⟩, .everything, .empty, true, true, true⟩ _ _
    (Program.completes_run Bench.handle _ (.base parts))

/-- Every way in which a call may end. -/
def duringOutage : List (CompletedCall (Bench.base .stored).engine) :=
  [registeredOn .stored true, registeredOn .stored false,
    polledOn .stored .everything false,
    polledOn (.lookingUp 0 (some (.backend "no such host"))) (.project [⟨10⟩]) true,
    polledOn (.lookingUp 31000000000 none) (.project [⟨10⟩]) true,
    polledOn .stored (.project [⟨20⟩]) true,
    polledOn (.projecting [.stall]) .everything true,
    polledOn (.projecting [.error (.backend "connection reset")]) .everything true,
    polledOn Bench.brokenDown.parts .everything true,
    countedOn (.projecting [])]

end CompletedCall

theorem Engine.accounting_balances_duringOutage :
    let history := CompletedCall.duringOutage
    let m := Metrics.after history
    CompletedCall.events history < 2 ^ 64 ∧
    m = { polls := 8, assigned := 2, empty := 5, conflicts := 0, paused := 1, scopeFailures := 1,
          failovers := 3, timeouts := 2 } ∧
    m.polls.toNat = m.assigned.toNat + m.empty.toNat +
        history.countP (·.ending? = some .failed) ∧
    m.assigned.toNat = history.countP (·.ending? = some .assigned) ∧
    m.paused.toNat + m.scopeFailures.toNat + m.timeouts.toNat ≤ m.empty.toNat ∧
    ∀ c, c ≠ .conflicts → (m.read c).toNat = history.countP (·.countsAs c) := by
  intro history m
  have hfew : CompletedCall.events history < 2 ^ 64 := by decide +kernel
  obtain ⟨hpolls, hassigned, hreasons, hread, -⟩ := Engine.accounting_balances _ history hfew
  exact ⟨hfew, by decide +kernel, hpolls, hassigned, hreasons, hread⟩

end BuildQueue
