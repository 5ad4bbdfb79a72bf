import BuildQueue.Engine.Claim
import BuildQueue.Engine.Metrics
import BuildQueue.Engine.Scope

/-!
# Polls

A poll hands at most one build to a runner. It resolves the scope, reads the selected strategy once
and makes one pass over its snapshot; if the projection fails while it is read and failover is on,
it makes one more pass over the direct scan with the same scope, cutoff and deadline.
-/

namespace BuildQueue

/-- Matches polling runners to builds, by these settings. -/
structure Engine where
  /-- Try the direct scan when the projection fails. -/
  failover : Bool
  pollTimeout : Duration
  /-- Builds queued more recently than this are held back. -/
  backoff : Duration
  deriving DecidableEq

/-- What a single poll sets for itself. -/
structure PollOptions where
  timeout : Option Duration
  queuedBefore : Option Instant
  deriving DecidableEq

def PollOptions.none : PollOptions := ⟨Option.none, Option.none⟩

/-- What a poll hands out. -/
inductive PollOutcome where
  | assigned (a : Assignment)
  | empty
  deriving DecidableEq, Inhabited

def PollOutcome.assignment? : PollOutcome → Option Assignment
  | .assigned a => some a
  | .empty => none

/-- The result of a call and what it adds to the metrics. -/
structure Report (α : Type) where
  result : Except QueueError α
  metrics : Metrics

namespace Engine

/-- Builds queued up to this instant are offered: now less the backoff. -/
def defaultCutoff (engine : Engine) (now : Instant) : Instant := now.before engine.backoff

/-- Only a failed projection is replaced, and only by the direct scan. -/
def canFailOver (engine : Engine) (strategy : StrategyKind) : Bool :=
  engine.failover && strategy != .directScan

/-- A cutoff of the poll's own needs no clock. -/
def cutoff (engine : Engine) : Option Instant → Program Instant
  | some cutoff => .done cutoff
  | none => .ask .wallClock fun now ↦ .done (engine.defaultCutoff now)

end Engine

/-- The counts of a poll that hands out nothing, with others beside. -/
def Metrics.emptyPoll : Metrics := { Metrics.zero with polls := 1, empty := 1 }

def Report.emptyPoll (metrics : Metrics) : Report PollOutcome :=
  ⟨.ok .empty, Metrics.emptyPoll + metrics⟩

/-- What the last pass of a poll comes to, after some failovers. -/
def ClaimPass.report (failovers : UInt64) : ClaimPass → Report PollOutcome
  | .error failure => ⟨.error failure.error, { Metrics.zero with polls := 1, failovers }⟩
  | .ok (.assigned a skipped) =>
    ⟨.ok (.assigned a),
      { Metrics.zero with polls := 1, assigned := 1, conflicts := .ofNat skipped, failovers }⟩
  | .ok (.exhausted skipped) =>
    .emptyPoll { Metrics.zero with conflicts := .ofNat skipped, failovers }
  | .ok (.timedOut skipped) =>
    .emptyPoll { Metrics.zero with conflicts := .ofNat skipped, failovers, timeouts := 1 }

namespace Engine

/-- The passes of a poll over a scope that is not empty. -/
def claim (engine : Engine) (scope : ProjectScope) (eligibility : Eligibility)
    (deadline : Tick) : Program (Report PollOutcome) := do
  let strategy ← Program.request .selection
  let pass ← claimFrom strategy scope eligibility deadline
  match pass with
  | .error (.snapshot e) =>
    if engine.canFailOver strategy then
      let pass ← claimFrom .directScan scope eligibility deadline
      return ClaimPass.report 1 pass
    else return ClaimPass.report 0 (.error (.snapshot e))
  | pass => return ClaimPass.report 0 pass

/-- One poll on behalf of a runner. -/
def poll (engine : Engine) (runner : Runner) (options : PollOptions) :
    Program (Report PollOutcome) := do
  if !runner.active then
    return .emptyPoll { Metrics.zero with paused := 1 }
  let start ← Program.request .tick
  let deadline := start + (options.timeout.getD engine.pollTimeout).nanos
  let cutoff ← engine.cutoff options.queuedBefore
  match ← runner.scope.resolve (some deadline) with
  | .failed _ => return .emptyPoll { Metrics.zero with scopeFailures := 1 }
  | .timedOut => return .emptyPoll { Metrics.zero with timeouts := 1 }
  | .scope scope =>
    if scope.isEmpty then return .emptyPoll .zero
    engine.claim scope ⟨runner, cutoff⟩ deadline

/-- A poll of a runner as it registers itself; a bad registration is not counted. -/
def pollRegistration (engine : Engine) (reg : Registration) (options : PollOptions) :
    Program (Report PollOutcome) :=
  match reg.runner with
  | .error e => .done ⟨.error e, .zero⟩
  | .ok runner => engine.poll runner options

/-- The number of builds a runner's scope shows, before tags and protection are looked at. -/
def queueDepth (engine : Engine) (runner : Runner) : Program (Report Nat) := do
  let scope := (← runner.scope.resolve none).scopeOrEmpty
  if scope.isEmpty then
    return ⟨.ok 0, .zero⟩
  let cutoff ← engine.cutoff none
  let strategy ← Program.request .selection
  match ← Program.request (.depth strategy scope cutoff) with
  | .ok n => return ⟨.ok n, .zero⟩
  | .error e =>
    if engine.canFailOver strategy then
      let depth ← Program.request (.depth .directScan scope cutoff)
      return ⟨depth, { Metrics.zero with failovers := 1 }⟩
    else return ⟨.error e, .zero⟩

end Engine

end BuildQueue
