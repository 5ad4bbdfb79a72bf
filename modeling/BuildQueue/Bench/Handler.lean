import BuildQueue.Bench.Basic
import BuildQueue.Postgres.Lookup
import BuildQueue.Postgres.Paging
import BuildQueue.Postgres.Server

/-!
# What the bench replies

A wait that would end after its deadline is cut off there; one that takes no time is never cut off.
Every claim is noted before anything else happens to it, and once started it runs to its end.
-/

namespace BuildQueue.Bench

open Postgres

/-! ## Time -/

/-- Waits, and says whether the wait came to its end. -/
def wait (nanos : Nat) (deadline : Deadline) (b : Bench) : Bool × Bench :=
  if nanos = 0 then (true, b)
  else
    match deadline with
    | none => (true, { b with clock := b.clock + nanos })
    | some t =>
      if t < b.clock + nanos then (false, { b with clock := max b.clock t })
      else (true, { b with clock := b.clock + nanos })

/-- Waits for nothing; without a deadline no time passes. -/
def stall (deadline : Deadline) (b : Bench) : Bench :=
  { b with clock := max b.clock (deadline.getD b.clock) }

/-- Reads the time of day; no two readings are the same. -/
def readTime (b : Bench) : Instant × Bench := (b.time, { b with time := b.time.shift 1 })

/-! ## Closed pools -/

/-- A dialogue with a pool that is closed. -/
def onClosedPool {α : Type} (d : Dialogue α) : α :=
  (d.run (fun _ (_ : Unit) ↦ (closedPool, ())) ()).1

/-- Builds on a page of a closed pool; no more than one page is ever asked for. -/
def closedPageSize : Int := 2

/-! ## The directory -/

/-- A lookup, after the delay of the directory and unless it has an error. -/
def lookUp {α : Type} (closed : Dialogue (Except QueueError α)) (found : Store → α)
    (error? : DirectorySource → Option QueueError) (deadline : Deadline) (b : Bench) :
    Option (Except QueueError α) × Bench :=
  match b.parts.directory with
  | .closedPool => (some (onClosedPool closed), b)
  | .store => (some (.ok (found b.store)), b)
  | .script delay _ _ =>
    match b.wait delay deadline with
    | (false, b) => (none, b)
    | (true, b) =>
      match error? b.parts.directory with
      | some e => (some (.error e), b)
      | none => (some (.ok (found b.store)), b)

def descendantsError? : DirectorySource → Option QueueError
  | .script _ e _ => e
  | _ => none

def projectsError? : DirectorySource → Option QueueError
  | .script _ _ e => e
  | _ => none

/-! ## The queue -/

/-- A script as a feed, with what the store shows now in its place. -/
def scriptFeed (shown : Except QueueError (List QueuedBuild)) : List ScriptItem → Feed
  | [] => .done
  | .build b :: items => .item (.ok b) (scriptFeed shown items)
  | .error e :: items => .item (.error e) (scriptFeed shown items)
  | .delay nanos :: items => .wait nanos (scriptFeed shown items)
  | .stall :: _ => .stall
  | .store :: items => (Feed.ofResult shown).append (scriptFeed shown items)

def fetch (b : Bench) (slot : StrategyKind) (scope : ProjectScope) (cutoff : Instant) : Feed :=
  let shown := b.store.scan slot scope cutoff
  match b.parts.source slot with
  | .store => .ofResult shown
  | .closedPool => queueFeed slot closedPageSize scope cutoff 1
  | .script _ items _ => scriptFeed shown items

def depth (b : Bench) (slot : StrategyKind) (scope : ProjectScope) (cutoff : Instant) :
    Except QueueError Nat :=
  match b.parts.source slot with
  | .closedPool => onClosedPool (Postgres.depth slot scope cutoff)
  | .script _ _ (some depth) => depth
  | _ => b.store.depth slot scope cutoff

/-! ## Claims -/

/-- Claims on the store itself. -/
def claimStored (b : Bench) (job : JobId) (runner : RunnerId) : Option Assignment × Bench :=
  let (now, b) := b.readTime
  let (a, store) := b.store.tryClaim job runner now
  (a, { b with store })

/-- Hands a build out once, without the store. -/
def handOut (b : Bench) (job : JobId) (runner : RunnerId) : Option Assignment × Bench :=
  if job ∈ b.handedOut then (none, b)
  else
    let (now, b) := b.readTime
    (some ⟨job, runner, now⟩, { b with handedOut := b.handedOut.insert job })

/-- The claims of others that come first. -/
def letRivals (rivals : List (JobId × RunnerId)) (b : Bench) : Bench :=
  rivals.foldl (fun b rival ↦ (b.claimStored rival.1 rival.2).2) b

def claim (b : Bench) (job : JobId) (runner : RunnerId) :
    Except QueueError (Option Assignment) × Bench :=
  let b := { b with attempts := job :: b.attempts }
  match b.parts.claims with
  | .closedPool => (onClosedPool (Postgres.claim job runner), b)
  | .script s =>
    let b := b.letRivals ((s.rivals.find? job).getD [])
    let b := (b.wait s.delay none).2
    match s.errors.find? job with
    | some e => (.error e, b)
    | none =>
      let (a, b) := if s.standsIn then b.handOut job runner else b.claimStored job runner
      (.ok a, b)

/-! ## Replies -/

def handle : Handler Bench
  | .tick, b => (b.clock, b)
  | .wallClock, b => b.readTime
  | .descendants root deadline, b =>
    b.lookUp (Postgres.descendants root) (·.descendantProjectIds root) descendantsError? deadline
  | .projects ids deadline, b =>
    b.lookUp (Postgres.projects ids) (·.projectRecords ids) projectsError? deadline
  | .selection, b => (b.selector.selected, b)
  | .fetch slot scope cutoff, b => (b.fetch slot scope cutoff, b)
  | .wait (some nanos) deadline, b => b.wait nanos deadline
  | .wait none deadline, b => (false, b.stall deadline)
  | .statement .., b => (some closedPool, b)
  | .claim job runner, b => b.claim job runner
  | .depth slot scope cutoff, b => (b.depth slot scope cutoff, b)

end BuildQueue.Bench
