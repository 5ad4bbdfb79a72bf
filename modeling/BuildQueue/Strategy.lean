import BuildQueue.Error

/-!
# Queue strategies

The queue is read either from the builds themselves or from the projection of the pending ones.
-/

namespace BuildQueue

/-- Where the queue is read. -/
inductive StrategyKind where
  /-- From the table of all builds. -/
  | directScan
  /-- From the table of pending builds. -/
  | projection
  deriving DecidableEq, Repr, Inhabited

namespace StrategyKind

def name : StrategyKind → String
  | .directScan => "direct-scan"
  | .projection => "projection"

/-- The strategy of a name, if it is one. -/
def ofName? (s : String) : Option StrategyKind :=
  [StrategyKind.directScan, .projection].find? (·.name = s)

/-- A strategy by its name or by the name of its table. -/
def parse (s : String) : Except QueueError StrategyKind :=
  match ofName? s with
  | some kind => .ok kind
  | none =>
    if s = "builds-table" then .ok .directScan
    else if s = "pending-builds" then .ok .projection
    else .error (.invalidInput ("unknown queue strategy: " ++ s))

@[simp] theorem ofName?_name (kind : StrategyKind) : ofName? kind.name = some kind := by
  cases kind <;> decide

end StrategyKind

end BuildQueue
