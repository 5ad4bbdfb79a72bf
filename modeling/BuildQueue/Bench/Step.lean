import BuildQueue.Bench.Handler
import BuildQueue.Engine.Poll
import BuildQueue.Engine.Reading
import BuildQueue.Store.Operation

/-!
# Steps on the bench

What can be done with a bench, and what is seen of it.
-/

namespace BuildQueue

/-- Something to do on a bench. -/
inductive BenchStep where
  | addNamespace (id : NamespaceId) (parent : Option NamespaceId)
  | putProject (project : ProjectRecord)
  | enqueue (build : NewBuild)
  | setStatus (job : JobId) (status : String)
  | build (job : JobId)
  | setProjectionAvailable (available : Bool)
  /-- On the store itself. -/
  | claimStored (job : JobId) (runner : RunnerId)
  /-- Where the engine claims. -/
  | claim (job : JobId) (runner : RunnerId)
  | descendants (root : NamespaceId)
  | projects (ids : List ProjectId)
  /-- A scope; a lookup that fails gives the empty one. -/
  | resolve (runner : Runner)
  /-- A scope; a lookup that fails is reported. -/
  | tryResolve (runner : Runner)
  | fetch (strategy : Option StrategyKind) (scope : ProjectScope) (cutoff : Instant)
  | depth (strategy : Option StrategyKind) (scope : ProjectScope) (cutoff : Instant)
  | snapshot (name : String) (strategy : Option StrategyKind) (scope : ProjectScope)
      (cutoff : Instant)
  /-- The next item of a snapshot. -/
  | next (name : String)
  | poll (runner : Runner) (options : PollOptions)
  | pollRegistration (reg : Registration) (options : PollOptions)
  | queueDepth (runner : Runner)
  | select (kind : StrategyKind)
  | selected
  | subscribe
  | watch (watcher : Nat)
  | setClaims (script : ClaimScript)
  | attempts
  | metrics
  | newMetrics
  | dump

/-- A claim as it is seen: the store has the build running since the same instant, or not. -/
structure SeenClaim where
  assignment : Assignment
  isStored : Bool

/-- What is seen after a step. -/
inductive Sight where
  | nothing
  | job (id : JobId)
  | row (row : Option BuildRow)
  | claim (claim : Option SeenClaim)
  | projectIds (ids : List ProjectId)
  | records (records : List ProjectRecord)
  | scope (scope : ProjectScope)
  | reading (reading : FeedReading)
  | entry (entry : Option FeedEntry)
  /-- What a poll came to, and how many milliseconds it took. -/
  | poll (result : Except QueueError (Option SeenClaim)) (elapsed : Nat)
  | number (n : Nat)
  | strategies (kinds : List StrategyKind)
  | strategy (kind : StrategyKind)
  | watched (changed : Bool) (kind : StrategyKind)
  | jobs (ids : List JobId)
  | metrics (m : Metrics)
  | dump (rows : List BuildRow) (directScan projection : Except QueueError (List JobId))

namespace Bench

/-- Time without any item after which a feed counts as stalled. -/
def patience : Nat := 60 * nanosPerSecond

def run {α : Type} (p : Program α) (b : Bench) : α × Bench := p.run handle b

def see (b : Bench) (a : Assignment) : SeenClaim where
  assignment := a
  isStored := ((b.store.builds.find? a.jobId).bind (·.startedAt)) = some a.claimedAt

/-- A report of the engine, whose metrics are added up. -/
def report {α : Type} (p : Program (Report α)) (b : Bench) : Except QueueError α × Bench :=
  let (report, b) := b.run p
  (report.result, { b with metrics := b.metrics + report.metrics })

def ids (builds : List QueuedBuild) : List JobId := builds.map (·.jobId)

/-- The ids both strategies show of the whole store. -/
def dump (b : Bench) : Sight :=
  let shown strategy := (b.store.scan strategy .everything .latest).map ids
  .dump b.store.builds.values (shown .directScan) (shown .projection)

/-- A store that refuses an operation stays as it was. -/
def write (b : Bench) (op : StoreOperation) : Except QueueError Sight × Bench :=
  let (reply, store) := b.store.apply op
  let b := { b with store }
  match reply with
  | .done => (.ok .nothing, b)
  | .enqueued job => (.ok (.job job), b)
  | .assigned a => (.ok (.claim (some (b.see a))), b)
  | .lost => (.ok (.claim none), b)
  | .refused e => (.error e, b)
  | .overflowed => (.ok .nothing, b)

/-- A poll, with the milliseconds it took. -/
def poll (b : Bench) (p : Program (Report PollOutcome)) : Except QueueError Sight × Bench :=
  let (result, after) := b.report p
  let claim := result.map fun outcome ↦ outcome.assignment?.map after.see
  (.ok (.poll claim ((after.clock - b.clock) / 1000000)), after)

/-- Takes one step. -/
def step (b : Bench) : BenchStep → Except QueueError Sight × Bench
  | .addNamespace id parent => b.write (.addNamespace id parent)
  | .putProject project => b.write (.putProject project)
  | .enqueue build => b.write (.enqueue build)
  | .setStatus job status =>
    match BuildStatus.parse status with
    | .error e => (.error e, b)
    | .ok status => b.write (.setStatus job status)
  | .build job => (.ok (.row (b.store.builds.find? job)), b)
  | .setProjectionAvailable available => b.write (.setProjectionAvailable available)
  | .claimStored job runner =>
    let (a, b) := b.claimStored job runner
    (.ok (.claim (a.map b.see)), b)
  | .claim job runner =>
    let (result, b) := b.claim job runner
    (result.map fun a ↦ .claim (a.map b.see), b)
  | .descendants root => (.ok (.projectIds (b.store.descendantProjectIds root)), b)
  | .projects ids => (.ok (.records (b.store.projectRecords ids)), b)
  | .resolve runner =>
    let (resolution, b) := b.run (runner.scope.resolve none)
    (.ok (.scope resolution.scopeOrEmpty), b)
  | .tryResolve runner =>
    let (resolution, b) := b.run (runner.scope.resolve none)
    match resolution with
    | .failed e => (.error e, b)
    | resolution => (.ok (.scope resolution.scopeOrEmpty), b)
  | .fetch strategy scope cutoff =>
    let feed := b.fetch (strategy.getD b.selector.selected) scope cutoff
    let (reading, b) := b.run (feed.readAll patience (b.clock + patience))
    (.ok (.reading reading), b)
  | .depth strategy scope cutoff =>
    ((b.depth (strategy.getD b.selector.selected) scope cutoff).map .number, b)
  | .snapshot name strategy scope cutoff =>
    let slot := strategy.getD b.selector.selected
    (.ok (.strategy (b.parts.kind slot)),
      { b with snapshots := b.snapshots.insert name (b.fetch slot scope cutoff) })
  | .next name =>
    let ((entry, rest), b) := b.run ((b.snapshots.find? name).getD .done).next
    (.ok (.entry entry), { b with snapshots := b.snapshots.insert name rest })
  | .poll runner options => b.poll (b.engine.poll runner options)
  | .pollRegistration reg options => b.poll (b.engine.pollRegistration reg options)
  | .queueDepth runner =>
    let (depth, b) := b.report (b.engine.queueDepth runner)
    (depth.map .number, b)
  | .select kind =>
    let selector := b.selector.select kind
    (.ok (.strategy selector.selected), { b with selector })
  | .selected =>
    (.ok (.strategies [b.selector.selected, b.parts.kind b.selector.selected]), b)
  | .subscribe =>
    (.ok (.number b.watchers.length),
      { b with watchers := b.watchers ++ [b.selector.selections] })
  | .watch watcher =>
    let changed := b.selector.changedSince ((b.watchers[watcher]?).getD 0)
    (.ok (.watched changed b.selector.selected),
      { b with watchers := b.watchers.set watcher b.selector.selections })
  | .setClaims script =>
    (.ok .nothing,
      { b with parts := { b.parts with claims := .script script }, handedOut := .empty })
  | .attempts => (.ok (.jobs b.attempts.reverse), { b with attempts := [] })
  | .metrics => (.ok (.metrics b.metrics), b)
  | .newMetrics => (.ok (.metrics .zero), b)
  | .dump => (.ok b.dump, b)

end Bench

end BuildQueue
