import BuildQueue.Engine.Poll
import BuildQueue.Store.Service

/-!
# Simulation

Several runners drain one store. Each polls until it gets nothing, one request at a time; a schedule
says whose turn it is and what the clocks read. At the end every build has to be assigned, and none
twice.
-/

namespace BuildQueue

/-- What a worker is about to do. -/
inductive WorkerStage where
  | polling (poll : Program (Report PollOutcome))
  /-- The last poll came back empty. -/
  | stopped
  | failed (e : QueueError)

/-- A runner at work, with what it was assigned. -/
structure Worker where
  runner : Runner
  stage : WorkerStage
  claimed : List Assignment

namespace Worker

/-- The poll of a runner without settings of its own. -/
def poll (engine : Engine) (runner : Runner) : Program (Report PollOutcome) :=
  engine.poll runner .none

def start (engine : Engine) (runner : Runner) : Worker :=
  ⟨runner, .polling (poll engine runner), []⟩

def isAtWork (w : Worker) : Bool :=
  match w.stage with
  | .polling _ => true
  | _ => false

/-- Takes over what a poll came to. -/
def finishPoll (engine : Engine) (w : Worker) : Except QueueError PollOutcome → Worker
  | .ok (.assigned a) =>
    { w with claimed := w.claimed ++ [a], stage := .polling (poll engine w.runner) }
  | .ok .empty => { w with stage := .stopped }
  | .error e => { w with stage := .failed e }

end Worker

/-- Workers at one store. -/
structure Simulation where
  engine : Engine
  selected : StrategyKind
  store : Store
  workers : List Worker
  metrics : Metrics

/-- Why a simulation is no success. -/
inductive SimulationError where
  | queue (e : QueueError)
  | assignedTwice
  | wrongCount (assigned builds : Nat)
  deriving DecidableEq

def SimulationError.message : SimulationError → String
  | .queue e => e.message
  | .assignedTwice => "a build was assigned more than once"
  | .wrongCount assigned builds => s!"assigned {assigned} of {builds} builds"

/-- What a simulation reports. -/
structure SimulationReport where
  strategy : StrategyKind
  /-- By the ids of the builds. -/
  assignments : List Assignment
  metrics : Metrics

namespace Simulation

/-! ## The store to drain -/

/-- The projects of the builds. -/
def projectCount : Nat := 3

def seedTags (i : Nat) : List String :=
  match i % 3 with
  | 0 => []
  | 1 => ["docker"]
  | _ => ["docker", "linux"]

/-- Build number `i`, queued that many seconds after the start. -/
def seedBuild (start : Instant) (i : Nat) : NewBuild where
  projectId := .ofInt (i % projectCount + 1)
  tags := .ofList (seedTags i)
  refProtected := i % 5 = 0
  queuedAt := start.shift (i * nanosPerSecond)

def seedProjects : Store :=
  let projects := (List.range projectCount).map fun (i : Nat) ↦
    ProjectRecord.opened (.ofInt (i + 1)) (.ofInt 1)
  projects.foldl Store.putProject (Store.empty.addNamespace (.ofInt 1) none)

/-- A store with so many builds, a second apart, all queued before now. -/
def seed (now : Instant) (builds : Nat) : Except QueueError Store :=
  let start := now.shift (-((builds + 1) * nanosPerSecond : Nat))
  (List.range builds).foldlM
    (fun s i ↦ (s.enqueue (seedBuild start i)).map fun added ↦ added.elim s (·.2)) seedProjects

/-- A runner that may take every build. -/
def seedRunner (i : Nat) : Runner where
  id := .ofInt (i + 1)
  scope := .everything
  tags := .ofList ["docker", "linux"]
  runUntagged := true
  protectedRefAccess := true
  active := true

def ofStore (engine : Engine) (strategy : StrategyKind) (store : Store) (runners : Nat) :
    Simulation where
  engine
  selected := strategy
  store
  workers := (List.range runners).map fun i ↦ .start engine (seedRunner i)
  metrics := .zero

/-! ## Turns -/

/-- One request of a worker, or the end of its poll. -/
def step (sim : Simulation) (i : Nat) (moment : Moment) : Simulation :=
  match sim.workers[i]? with
  | none => sim
  | some w =>
    match w.stage with
    | .polling (.ask q next) =>
      let (reply, store) := sim.store.handle moment sim.selected q
      { sim with store, workers := sim.workers.set i { w with stage := .polling (next reply) } }
    | .polling (.done report) =>
      { sim with
        workers := sim.workers.set i (w.finishPoll sim.engine report.result)
        metrics := sim.metrics + report.metrics }
    | _ => sim

/-- A worker and the moment of its turn. -/
abbrev Turn := Nat × Moment

def run (sim : Simulation) (schedule : List Turn) : Simulation :=
  schedule.foldl (fun sim turn ↦ sim.step turn.1 turn.2) sim

def isFinished (sim : Simulation) : Bool := sim.workers.all (!·.isAtWork)

/-- Gives turns to the first worker that is still at work, each a nanosecond after the one before,
at most so many. -/
def drain : Nat → Moment → Simulation → Simulation
  | 0, _, sim => sim
  | turns + 1, moment, sim =>
    match sim.workers.findIdx? Worker.isAtWork with
    | none => sim
    | some i =>
      drain turns ⟨moment.tick + 1, moment.time.shift 1⟩ (sim.step i moment)

/-- Turns that are enough for a drain one worker after the other. -/
def enoughTurns (runners builds : Nat) : Nat := 16 * (runners + builds + 1)

/-! ## The end -/

def failure? (sim : Simulation) : Option QueueError :=
  sim.workers.findSome? fun w ↦
    match w.stage with
    | .failed e => some e
    | _ => none

def assignments (sim : Simulation) : List Assignment :=
  (sim.workers.flatMap (·.claimed)).mergeSort fun a b ↦ (compare a.jobId b.jobId).isLE

def report (sim : Simulation) (builds : Nat) : Except SimulationError SimulationReport :=
  match sim.failure? with
  | some e => .error (.queue e)
  | none =>
    let assignments := sim.assignments
    if ¬ (assignments.map (·.jobId)).Nodup then .error .assignedTwice
    else if assignments.length ≠ builds then .error (.wrongCount assignments.length builds)
    else .ok ⟨sim.selected, assignments, sim.metrics⟩

/-- Drains a store of so many builds with so many runners. -/
def simulate (engine : Engine) (strategy : StrategyKind) (runners builds : Nat) (now : Instant) :
    Except SimulationError SimulationReport :=
  match seed now builds with
  | .error e => .error (.queue e)
  | .ok store =>
    let sim := ofStore engine strategy store runners
    (drain (enoughTurns runners builds) ⟨0, now⟩ sim).report builds

end Simulation

end BuildQueue
