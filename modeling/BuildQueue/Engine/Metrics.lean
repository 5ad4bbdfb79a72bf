/-!
# Metrics

Counters of what polls came to. They are 64 bits wide and wrap around.
-/

namespace BuildQueue

/-- Counts of polls by their outcome, and of what happened on the way. -/
@[ext]
structure Metrics where
  polls : UInt64
  assigned : UInt64
  empty : UInt64
  /-- Builds lost to a concurrent claim. -/
  conflicts : UInt64
  paused : UInt64
  scopeFailures : UInt64
  failovers : UInt64
  timeouts : UInt64
  deriving DecidableEq, Repr

namespace Metrics

def zero : Metrics := ⟨0, 0, 0, 0, 0, 0, 0, 0⟩

instance : Inhabited Metrics := ⟨zero⟩

instance : Add Metrics where
  add a b :=
    { polls := a.polls + b.polls
      assigned := a.assigned + b.assigned
      empty := a.empty + b.empty
      conflicts := a.conflicts + b.conflicts
      paused := a.paused + b.paused
      scopeFailures := a.scopeFailures + b.scopeFailures
      failovers := a.failovers + b.failovers
      timeouts := a.timeouts + b.timeouts }

end Metrics

end BuildQueue
