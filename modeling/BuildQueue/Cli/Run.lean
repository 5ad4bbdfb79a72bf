import BuildQueue.Cli.Failure
import BuildQueue.Cli.Invocation
import BuildQueue.Config.File
import BuildQueue.Engine.Selector
import BuildQueue.Json.Service
import BuildQueue.Json.Writer
import BuildQueue.Postgres.Connection
import BuildQueue.Simulation

/-!
# Running commands

A command reads its configuration first, then connects to the database if it needs one, and prints a
report. A registration is checked before a depth is asked for, and by the poll itself.
-/

namespace BuildQueue

/-- What a command finds around it. -/
structure Surroundings where
  files : FileTree
  /-- The servers that can be reached, by their addresses. -/
  servers : List (String × Postgres.Server)
  now : Instant

/-- How a command ends. -/
inductive Ending where
  | success
  /-- What is wrong has been printed. -/
  | refused
  | failed (f : Failure)
  | misused

/-- What a command leaves behind: its output, its end, and what it asked of a server. -/
structure Effect where
  output : String
  ending : Ending
  statements : List Postgres.Statement

namespace Effect

def failed (f : Failure) : Effect := ⟨"", .failed f, []⟩

def printed (output : String) : Effect := ⟨output, .success, []⟩

/-- The exit status of the program. -/
def status (e : Effect) : UInt32 :=
  match e.ending with
  | .success => 0
  | .refused => 1
  | .failed _ => 1
  | .misused => 2

/-- What is printed as an error. -/
def errorOutput (e : Effect) : String :=
  match e.ending with
  | .failed f => f.render
  | _ => ""

end Effect

namespace Json

/-- A value on lines of its own. -/
def toLines (j : Json) : String := j.toPrettyString ++ "\n"

end Json

/-! ## Connecting -/

/-- A character of the name of a scheme, after the first one. -/
def isSchemeChar (c : Char) : Bool := c.isAlphanum || c = '+' || c = '-' || c = '.'

/-- An address starts with the name of a scheme and a colon. Blanks around it, tabs and line breaks
do not count. -/
def hasScheme (url : String) : Bool :=
  let cs := (url.toList.dropWhile (·.toNat ≤ 0x20)).filter fun c ↦
    c != '\t' && c != '\n' && c != '\r'
  cs.head?.any Char.isAlpha && (cs.dropWhile isSchemeChar).head? = some ':'

/-- The server at an address. -/
def Surroundings.connect (s : Surroundings) (url : String) :
    Except Postgres.StatementError Postgres.Server :=
  if !hasScheme url then .error (.configuration "relative URL without a base")
  else
    match s.servers.lookup url with
    | some server => .ok server
    | none => .error .poolTimedOut

namespace Surroundings

def loadConfig (s : Surroundings) (path : String) (url : Option String) :
    Except Failure SystemConfig :=
  match SystemConfig.loadOrStandard s.files path with
  | .ok config => .ok (config.withUrl url)
  | .error e => .error (.ofConfig path e)

/-- Connects to the configured database and goes on with the server. -/
def withServer (s : Surroundings) (config : SystemConfig) (next : Postgres.Server → Effect) :
    Effect :=
  match s.connect config.database.url with
  | .ok server => next server
  | .error e => .failed (.ofConnection e)

/-! ## Commands -/

def validate (s : Surroundings) (path : String) : Effect :=
  match SystemConfig.load s.files path with
  | .ok config => .printed ("Configuration is valid\n" ++ config.toJson.toLines)
  | .error e => ⟨"Configuration error: " ++ e.message ++ "\n", .refused, []⟩

def migrate (s : Surroundings) (config : SystemConfig) : Effect :=
  s.withServer config fun server ↦
    let (result, server) :=
      (Postgres.migrate Postgres.migrations).run.run Postgres.Server.execute server
    match result with
    | .ok () => ⟨"", .success, server.log⟩
    | .error e => ⟨"", .failed (.ofMigration e), server.log⟩

/-- Runs the engine over a server and prints what it comes to. -/
def serve {α : Type} (s : Surroundings) (config : SystemConfig) (strategy : StrategyKind)
    (p : Program (Report α)) (write : α → Json) : Effect :=
  s.withServer config fun server ↦
    let connection := Postgres.Connection.ofServer server strategy Postgres.defaultPageSize s.now
    let (report, connection) := p.run Postgres.Connection.handle connection
    match report.result with
    | .ok a => ⟨(write a).toLines, .success, connection.server.log⟩
    | .error e => ⟨"", .failed (.ofMessage e.message), connection.server.log⟩

def poll (s : Surroundings) (config : SystemConfig) (reg : Registration)
    (timeout : Option UInt64) (strategy : Option StrategyKind) : Effect :=
  let options : PollOptions := { timeout := timeout.map .ofMillis, queuedBefore := none }
  s.serve config (strategy.getD config.queue.strategy)
    (config.queue.engine.pollRegistration reg options) PollOutcome.toJson

/-- The report of a depth; its members are in the order of their names. -/
def depthReport (runner : Runner) (strategy : StrategyKind) (depth : Nat) : Json :=
  .ofMembers [("depth", .ofInt depth), ("runner_id", runner.id.toJson),
    ("strategy", strategy.toJson)]

def depth (s : Surroundings) (config : SystemConfig) (reg : Registration)
    (strategy : Option StrategyKind) : Effect :=
  match reg.runner with
  | .error e => .failed (.ofMessage e.message)
  | .ok runner =>
    let strategy := strategy.getD config.queue.strategy
    s.serve config strategy (config.queue.engine.queueDepth runner) (depthReport runner strategy)

end Surroundings

def SimulationReport.toJson (r : SimulationReport) : Json :=
  .ofMembers [("strategy", r.strategy.toJson),
    ("assignments", .array (r.assignments.map Assignment.toJson)), ("metrics", r.metrics.toJson)]

namespace Surroundings

/-- Drains a store of its own; the configuration plays no part. -/
def simulate (s : Surroundings) (runners builds : Nat) (strategy : StrategyKind) : Effect :=
  match Simulation.simulate QueueConfig.standard.engine strategy runners builds s.now with
  | .ok report => .printed report.toJson.toLines
  | .error e => .failed (.ofMessage e.message)

/-- Goes on with the configuration. -/
def withConfig (s : Surroundings) (path : String) (url : Option String)
    (next : SystemConfig → Effect) : Effect :=
  match s.loadConfig path url with
  | .ok config => next config
  | .error f => .failed f

def run (s : Surroundings) (i : Invocation) : Effect :=
  match i.command with
  | .validate path => s.validate (path.getD i.config)
  | .migrate => s.withConfig i.config i.databaseUrl s.migrate
  | .poll reg timeout strategy =>
    s.withConfig i.config i.databaseUrl fun config ↦ s.poll config reg timeout strategy
  | .depth reg strategy =>
    s.withConfig i.config i.databaseUrl fun config ↦ s.depth config reg strategy
  | .simulate runners builds strategy => s.simulate runners builds strategy

/-- Runs what arguments and environment ask for. -/
def execute (s : Surroundings) (environment : Environment) (arguments : List String) : Effect :=
  match Invocation.parse? environment arguments with
  | some i => s.run i
  | none => ⟨"", .misused, []⟩

end Surroundings

end BuildQueue
