import BuildQueue.Strategy

/-!
# Selecting a strategy

One strategy is selected at a time. Watchers see that a selection was made since they last looked,
also one of the same strategy.
-/

namespace BuildQueue

/-- The selected strategy and the number of selections so far. -/
structure Selector where
  selected : StrategyKind
  selections : Nat
  deriving DecidableEq

namespace Selector

/-- A selector over a scan and a projection, given what they say they are. -/
def make (scanKind projectionKind initial : StrategyKind) : Except QueueError Selector :=
  if scanKind ≠ .directScan then
    .error (.invalidInput ("expected a direct-scan strategy, got " ++ scanKind.name))
  else if projectionKind ≠ .projection then
    .error (.invalidInput ("expected a projection strategy, got " ++ projectionKind.name))
  else .ok ⟨initial, 0⟩

def select (s : Selector) (kind : StrategyKind) : Selector := ⟨kind, s.selections + 1⟩

/-- Whether there was a selection since so many of them were seen. -/
def changedSince (s : Selector) (seen : Nat) : Bool := s.selections != seen

end Selector

end BuildQueue
