import BuildQueue.Engine.Program
import BuildQueue.Postgres.Lookup
import BuildQueue.Postgres.Paging
import BuildQueue.Postgres.Server

/-!
# Connections

A connection serves the engine from a server. Statements take no measurable time, but a statement
has to wait for its answer, so none is sent at or after a deadline. A claim has no deadline.
-/

namespace BuildQueue.Postgres

/-- A server in service, with the selected strategy and the readings of the clocks. -/
structure Connection where
  server : Server
  selected : StrategyKind
  pageSize : Int
  tick : Tick
  time : Instant

namespace Connection

def ofServer (server : Server) (selected : StrategyKind) (pageSize : Int) (time : Instant) :
    Connection :=
  ⟨server, selected, pageSize, 0, time⟩

/-- Whether waiting is over. -/
def isLate (c : Connection) (deadline : Deadline) : Bool := deadline.any (· ≤ c.tick)

/-- Holds a dialogue with the server, whatever the time. -/
def converse {α : Type} (d : Dialogue α) (c : Connection) : α × Connection :=
  let (a, server) := d.run Server.execute c.server
  (a, { c with server })

/-- Holds a dialogue with the server, unless it needs a statement and waiting is over. -/
def converseBy {α : Type} (deadline : Deadline) (d : Dialogue α) (c : Connection) :
    Option α × Connection :=
  match d with
  | .done a => (some a, c)
  | d =>
    if c.isLate deadline then (none, c)
    else
      let (a, c) := c.converse d
      (some a, c)

/-- No feed has more pages with builds than there are answers left. -/
def feed (c : Connection) (strategy : StrategyKind) (scope : ProjectScope) (cutoff : Instant) :
    Feed :=
  queueFeed strategy c.pageSize scope cutoff (c.server.answers.length + 1)

def handle : Handler Connection
  | .tick, c => (c.tick, c)
  | .wallClock, c => (c.time, c)
  | .descendants root deadline, c => c.converseBy deadline (Postgres.descendants root)
  | .projects ids deadline, c => c.converseBy deadline (Postgres.projects ids)
  | .selection, c => (c.selected, c)
  | .fetch strategy scope cutoff, c => (c.feed strategy scope cutoff, c)
  | .wait .., c => (true, c)
  | .statement s deadline, c => c.converseBy deadline (.statement s)
  | .claim job runner, c => c.converse (Postgres.claim job runner)
  | .depth strategy scope cutoff, c => c.converse (Postgres.depth strategy scope cutoff)

end Connection

end BuildQueue.Postgres
