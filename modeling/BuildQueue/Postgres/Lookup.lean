import BuildQueue.Postgres.Row

/-!
# Lookups

The length of the queue, claims, and projects, each from the answer to one statement. Where the
result is known beforehand no statement is sent.
-/

namespace BuildQueue.Postgres

/-- A result of the database as the queue reports it. -/
def queueResult {α : Type} : Except StatementError α → Except QueueError α
  | .ok a => .ok a
  | .error e => .error e.toQueueError

/-- A count; a negative one counts as zero. -/
def count? : Row → Option Nat
  | [.integer n] => some n.toNat
  | _ => none

/-- The first row, which has to be there. -/
def Answer.one {α : Type} (read : Row → Option α) (answer : Answer) : Except StatementError α :=
  match answer.first? read with
  | .error e => .error e
  | .ok none => .error .rowNotFound
  | .ok (some a) => .ok a

def depth (strategy : StrategyKind) (scope : ProjectScope) (cutoff : Instant) :
    Dialogue (Except QueueError Nat) :=
  if scope.isEmpty then .done (.ok 0)
  else .ask (.depth strategy cutoff scope.projectIds?) fun answer ↦
    .done (queueResult (answer.one count?))

/-- Takes a build; a build that is gone or locked gives no row. -/
def claim (job : JobId) (runner : RunnerId) : Dialogue (Except QueueError (Option Assignment)) :=
  .ask (.claim job runner) fun answer ↦ .done (queueResult (answer.first? Assignment.ofRow?))

def descendants (root : NamespaceId) : Dialogue (Except QueueError (List ProjectId)) :=
  .ask (.descendants root) fun answer ↦ .done (queueResult (answer.rows Id.ofRow?))

def projects (ids : List ProjectId) : Dialogue (Except QueueError (List ProjectRecord)) :=
  if ids.isEmpty then .done (.ok [])
  else .ask (.projects ids) fun answer ↦ .done (queueResult (answer.rows ProjectRecord.ofRow?))

end BuildQueue.Postgres
