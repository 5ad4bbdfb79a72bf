import BuildQueue.Eligibility
import BuildQueue.Postgres.Statement

/-!
# Feeds

A feed is a snapshot of the queue while it is read. Its reader meets builds and errors in their
order, waits, and statements whose answer decides how the feed goes on. A feed may also never come
to its next item.
-/

namespace BuildQueue

/-- What is left to read of a snapshot. -/
inductive Feed where
  | done
  | item (entry : Except QueueError QueuedBuild) (rest : Feed)
  /-- The rest comes after some nanoseconds. -/
  | wait (nanos : Nat) (rest : Feed)
  /-- Nothing comes any more, and no end either. -/
  | stall
  /-- The answer to a statement decides how the feed goes on. -/
  | statement (s : Postgres.Statement) (next : Postgres.Answer → Feed)

namespace Feed

instance : Inhabited Feed := ⟨done⟩

def append : Feed → Feed → Feed
  | .done, g => g
  | .item entry rest, g => .item entry (rest.append g)
  | .wait nanos rest, g => .wait nanos (rest.append g)
  | .stall, _ => .stall
  | .statement s next, g => .statement s fun answer ↦ (next answer).append g

def ofEntries (entries : List (Except QueueError QueuedBuild)) (rest : Feed) : Feed :=
  entries.foldr .item rest

def ofBuilds (builds : List QueuedBuild) (rest : Feed) : Feed :=
  ofEntries (builds.map .ok) rest

/-- The feed of a list of builds, or of the error that came in its place. -/
def ofResult : Except QueueError (List QueuedBuild) → Feed
  | .ok builds => ofBuilds builds .done
  | .error e => .item (.error e) .done

/-- Leaves out the builds that do not satisfy the test; errors stay. -/
def filter (p : QueuedBuild → Bool) : Feed → Feed
  | .done => .done
  | .item (.ok build) rest =>
    if p build then .item (.ok build) (rest.filter p) else rest.filter p
  | .item (.error e) rest => .item (.error e) (rest.filter p)
  | .wait nanos rest => .wait nanos (rest.filter p)
  | .stall => .stall
  | .statement s next => .statement s fun answer ↦ (next answer).filter p

end Feed

/-- The feed with only the builds that are eligible. -/
def Eligibility.applyFeed (e : Eligibility) (feed : Feed) : Feed := feed.filter e.admits

end BuildQueue
