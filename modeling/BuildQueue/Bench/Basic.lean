import BuildQueue.Config.Basic
import BuildQueue.Engine.Selector
import BuildQueue.Store.Service

/-!
# The bench

On the bench an engine runs against parts that can be exchanged: the store, a database whose pool is
closed, or a script that says what happens and how long it takes. The clock of the bench stands
still while something is computed and jumps forward when something waits.
-/

namespace BuildQueue

/-- What a scripted feed does next. -/
inductive ScriptItem where
  | build (b : QueuedBuild)
  | error (e : QueueError)
  | delay (nanos : Nat)
  | stall
  /-- All builds that the store shows at the moment of the fetch. -/
  | store

/-- Where a strategy of the bench reads the queue. -/
inductive QueueSource where
  | store
  | closedPool
  /-- A script; its depth is that of the store unless it is given. -/
  | script (kind : StrategyKind) (items : List ScriptItem)
      (depth : Option (Except QueueError Nat))

/-- Where projects are looked up. -/
inductive DirectorySource where
  | store
  | closedPool
  /-- The store, after a delay and unless there is an error. -/
  | script (delay : Nat) (descendantsError projectsError : Option QueueError)

/-- Claims on the store with something before them. -/
structure ClaimScript where
  /-- Claims of others, by the build whose claim they forestall. -/
  rivals : Table JobId (List (JobId × RunnerId))
  delay : Nat
  errors : Table JobId QueueError
  /-- Hand out each build once without the store. -/
  standsIn : Bool

def ClaimScript.plain : ClaimScript := ⟨.empty, 0, .empty, false⟩

/-- Where builds are claimed. -/
inductive ClaimSource where
  | closedPool
  | script (s : ClaimScript)

/-- The parts of a bench. -/
structure BenchParts where
  directScan : QueueSource
  projection : QueueSource
  directory : DirectorySource
  claims : ClaimSource

/-- An engine and its surroundings. -/
structure Bench where
  engine : Engine
  selector : Selector
  parts : BenchParts
  store : Store
  metrics : Metrics
  clock : Tick
  /-- The time of day at the next reading. -/
  time : Instant
  /-- The claims that were tried, last one first. -/
  attempts : List JobId
  /-- The builds handed out without the store. -/
  handedOut : OrderedSet JobId
  /-- For each watcher, how many selections it has seen. -/
  watchers : List Nat
  snapshots : Table String Feed

/-- What a source of the queue says it is, where a slot expects a kind. -/
def QueueSource.kind (slot : StrategyKind) : QueueSource → StrategyKind
  | .script kind .. => kind
  | _ => slot

namespace BenchParts

def source (parts : BenchParts) : StrategyKind → QueueSource
  | .directScan => parts.directScan
  | .projection => parts.projection

def kind (parts : BenchParts) (slot : StrategyKind) : StrategyKind := (parts.source slot).kind slot

end BenchParts

namespace Bench

/-- A bench with these parts and nothing in its store. -/
def make (config : QueueConfig) (parts : BenchParts) (start : Instant) :
    Except QueueError Bench := do
  let selector ← Selector.make (parts.kind .directScan) (parts.kind .projection) config.strategy
  return {
    engine := config.engine
    selector
    parts
    store := .empty
    metrics := .zero
    clock := 0
    time := start
    attempts := []
    handedOut := .empty
    watchers := []
    snapshots := .empty }

end Bench

end BuildQueue
