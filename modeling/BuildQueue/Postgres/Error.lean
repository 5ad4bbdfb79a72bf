import BuildQueue.Error

/-!
# Errors of the database

A statement fails for a reason of its own; the queue sees every such failure as its backend being
unavailable.
-/

namespace BuildQueue.Postgres

/-- Why a statement or a connection failed. -/
inductive StatementError where
  /-- A row was needed and none came. -/
  | rowNotFound
  | poolClosed
  | poolTimedOut
  | protocol (what : String)
  /-- The server refused the statement. -/
  | server (what : String)
  /-- The address of the database is not usable. -/
  | configuration (what : String)
  deriving DecidableEq, Repr

namespace StatementError

def message : StatementError → String
  | .rowNotFound => "no rows returned by a query that expected to return at least one row"
  | .poolClosed => "attempted to acquire a connection on a closed pool"
  | .poolTimedOut => "pool timed out while waiting for an open connection"
  | .protocol what => "encountered unexpected or invalid data: " ++ what
  | .server what => "error returned from database: " ++ what
  | .configuration what => "error with configuration: " ++ what

/-- What lies behind the error, outermost first. -/
def causes : StatementError → List String
  | .server what => [what]
  | .configuration what => [what]
  | _ => []

/-- A row that does not have the columns of its statement. -/
def unexpectedRow : StatementError := .protocol "row does not fit the statement"

end StatementError

/-- Why the database could not do what it was asked. -/
inductive DatabaseError where
  | notFound (what : String)
  | statement (e : StatementError)
  deriving DecidableEq, Repr

namespace DatabaseError

def message : DatabaseError → String
  | .notFound what => "not found: " ++ what
  | .statement e => "database error: " ++ e.message

def toQueueError : DatabaseError → QueueError
  | .notFound what => .notFound what
  | .statement e => .backend (DatabaseError.statement e).message

end DatabaseError

def StatementError.toQueueError (e : StatementError) : QueueError :=
  (DatabaseError.statement e).toQueueError

end BuildQueue.Postgres
