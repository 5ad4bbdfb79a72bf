import BuildQueue.Id

/-!
# Errors of the queue

An error names its cause and carries the words that tell which thing it is about.
-/

namespace BuildQueue

/-- Why a queue operation failed. -/
inductive QueueError where
  /-- A record that the operation needs does not exist. -/
  | notFound (what : String)
  /-- A runner declares no scope or several. -/
  | invalidScope (why : String)
  /-- A value given by the caller has no meaning. -/
  | invalidInput (why : String)
  /-- The projects of a runner could not be looked up. -/
  | hierarchy (why : String)
  /-- The store behind the queue failed. -/
  | backend (why : String)
  deriving DecidableEq, Repr, Inhabited

namespace QueueError

def message : QueueError → String
  | .notFound what => "not found: " ++ what
  | .invalidScope why => "invalid runner scope: " ++ why
  | .invalidInput why => "invalid input: " ++ why
  | .hierarchy why => "namespace hierarchy lookup failed: " ++ why
  | .backend why => "queue backend unavailable: " ++ why

def unknownProject (id : ProjectId) : QueueError := .notFound s!"project {id}"

def unknownBuild (id : JobId) : QueueError := .notFound s!"build {id}"

def projectionUnavailable : QueueError := .backend "pending builds projection is unavailable"

end QueueError

end BuildQueue
