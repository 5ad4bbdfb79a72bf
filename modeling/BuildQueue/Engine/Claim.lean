import BuildQueue.Engine.Program

/-!
# Claiming the first build

A pass walks a feed in order and takes the first build the store lets go. A build that was lost is
skipped. The deadline cuts waiting for the next build and is looked at before every claim; a claim
that has started runs to its end.
-/

namespace BuildQueue

/-- How a pass over a feed ended. -/
inductive ClaimResult where
  /-- A build was taken after some others were lost. -/
  | assigned (a : Assignment) (skipped : Nat)
  /-- The feed ended and every build was lost. -/
  | exhausted (skipped : Nat)
  /-- The deadline came before a build was taken. -/
  | timedOut (skipped : Nat)
  deriving DecidableEq

/-- Which side of a pass failed. -/
inductive ClaimFailure where
  /-- Reading the feed. -/
  | snapshot (e : QueueError)
  /-- Taking a build. -/
  | claim (e : QueueError)
  deriving DecidableEq

def ClaimFailure.error : ClaimFailure → QueueError
  | .snapshot e => e
  | .claim e => e

/-- What a pass over a feed comes to. -/
abbrev ClaimPass := Except ClaimFailure ClaimResult

/-- Walks the feed, having lost some builds already. -/
def Feed.claimFirst (runner : RunnerId) (deadline : Tick) : Feed → Nat → Program ClaimPass
  | .done, skipped => .done (.ok (.exhausted skipped))
  | .item (.error e) _, _ => .done (.error (.snapshot e))
  | .item (.ok build) rest, skipped =>
    .ask .tick fun now ↦
      if deadline ≤ now then .done (.ok (.timedOut skipped))
      else
        .ask (.claim build.jobId runner) fun
          | .error e => .done (.error (.claim e))
          | .ok (some assignment) => .done (.ok (.assigned assignment skipped))
          | .ok none => rest.claimFirst runner deadline (skipped + 1)
  | .wait nanos rest, skipped =>
    .ask (.wait (some nanos) (some deadline)) fun
      | true => rest.claimFirst runner deadline skipped
      | false => .done (.ok (.timedOut skipped))
  | .stall, skipped =>
    .ask (.wait none (some deadline)) fun _ ↦ .done (.ok (.timedOut skipped))
  | .statement s next, skipped =>
    .ask (.statement s (some deadline)) fun
      | some answer => (next answer).claimFirst runner deadline skipped
      | none => .done (.ok (.timedOut skipped))

/-- One pass over a strategy's snapshot: fetch it, keep the eligible builds, take the first. -/
def claimFrom (strategy : StrategyKind) (scope : ProjectScope) (eligibility : Eligibility)
    (deadline : Tick) : Program ClaimPass :=
  .ask (.fetch strategy scope eligibility.cutoff) fun feed ↦
    (eligibility.applyFeed feed).claimFirst eligibility.runner.id deadline 0

end BuildQueue
