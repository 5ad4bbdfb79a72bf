import BuildQueue.Postgres.Statement
import BuildQueue.Project

/-!
# Rows

The rows of each statement have their columns in a fixed order. A row that has other columns is not
read.
-/

namespace BuildQueue

open Postgres

/-- A row of the queue: job, project, namespace, tags, protection, time queued. -/
def QueuedBuild.ofRow? : Row → Option QueuedBuild
  | [.integer job, .integer project, .integer nameSpace, .texts tags, .boolean refProtected,
      .timestamp queuedAt] => do
    return {
      jobId := ← Id.ofInt? job
      projectId := ← Id.ofInt? project
      namespaceId := ← Id.ofInt? nameSpace
      tags := .ofList tags
      refProtected
      queuedAt := ← Instant.ofMicros? queuedAt }
  | _ => none

/-- The row of a claim: job, runner, time claimed. -/
def Assignment.ofRow? : Row → Option Assignment
  | [.integer job, .integer runner, .timestamp claimedAt] => do
    return {
      jobId := ← Id.ofInt? job
      runnerId := ← Id.ofInt? runner
      claimedAt := ← Instant.ofMicros? claimedAt }
  | _ => none

/-- The row of a project: id, namespace and the four flags. -/
def ProjectRecord.ofRow? : Row → Option ProjectRecord
  | [.integer id, .integer nameSpace, .boolean buildsEnabled, .boolean sharedRunnersEnabled,
      .boolean groupRunnersEnabled, .boolean pendingDelete] => do
    return {
      id := ← Id.ofInt? id
      namespaceId := ← Id.ofInt? nameSpace
      buildsEnabled
      sharedRunnersEnabled
      groupRunnersEnabled
      pendingDelete }
  | _ => none

/-- A row of one id. -/
def Id.ofRow? {r : Resource} : Row → Option (Id r)
  | [.integer id] => Id.ofInt? id
  | _ => none

namespace Postgres

/-- All rows of an answer, read one by one. -/
def Answer.rows {α : Type} (read : Row → Option α) (answer : Answer) :
    Except StatementError (List α) :=
  match answer with
  | .error e => .error e
  | .ok rows =>
    match rows.mapM read with
    | some as => .ok as
    | none => .error .unexpectedRow

/-- The first row of an answer, if there is one. -/
def Answer.first? {α : Type} (read : Row → Option α) (answer : Answer) :
    Except StatementError (Option α) :=
  match answer with
  | .error e => .error e
  | .ok [] => .ok none
  | .ok (row :: _) =>
    match read row with
    | some a => .ok (some a)
    | none => .error .unexpectedRow

end Postgres

end BuildQueue
