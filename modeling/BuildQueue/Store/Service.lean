import BuildQueue.Engine.Program
import BuildQueue.Store.Hierarchy
import BuildQueue.Store.Scan

/-!
# The store in service

The store replies to every request of the engine at once and in one step, so requests of many
programs may meet it in any order.
-/

namespace BuildQueue

/-- The readings of both clocks at one moment. -/
structure Moment where
  tick : Tick
  time : Instant
  deriving DecidableEq

namespace Store

/-- The store's reply at a moment, under a selected strategy. Its feeds neither wait nor hold
statements. -/
def handle (moment : Moment) (selected : StrategyKind) : Handler Store
  | .tick, s => (moment.tick, s)
  | .wallClock, s => (moment.time, s)
  | .descendants root _, s => (some (.ok (s.descendantProjectIds root)), s)
  | .projects ids _, s => (some (.ok (s.projectRecords ids)), s)
  | .selection, s => (selected, s)
  | .fetch strategy scope cutoff, s => (.ofResult (s.scan strategy scope cutoff), s)
  | .wait .., s => (true, s)
  | .statement .., s => (some (.ok []), s)
  | .claim job runner, s =>
    let (a, s) := s.tryClaim job runner moment.time
    (.ok a, s)
  | .depth strategy scope cutoff, s => (s.depth strategy scope cutoff, s)

end Store

end BuildQueue
