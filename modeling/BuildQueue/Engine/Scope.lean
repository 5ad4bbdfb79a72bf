import BuildQueue.Engine.Program
import BuildQueue.Runner

/-!
# Resolving scopes

The scope of a runner becomes the projects it may take builds from. A lookup that fails never opens
the scope up: it is reported, or the scope is empty.
-/

namespace BuildQueue

/-- What resolving a scope came to. -/
inductive Resolution where
  | scope (s : ProjectScope)
  | failed (e : QueueError)
  | timedOut
  deriving DecidableEq

namespace Resolution

/-- The scope, or the empty one if there is none. -/
def scopeOrEmpty : Resolution → ProjectScope
  | .scope s => s
  | _ => .empty

/-- The scope of the records that satisfy the test. -/
def ofRecords (accepts : ProjectRecord → Bool) (records : List ProjectRecord) : ProjectScope :=
  .ofList ((records.filter accepts).map (·.id))

/-- Goes on with the result of a lookup; its error is one of the hierarchy. -/
def ofLookup {α : Type} (found : α → Program Resolution) :
    Option (Except QueueError α) → Program Resolution
  | none => .done .timedOut
  | some (.error e) => .done (.failed (.hierarchy e.message))
  | some (.ok a) => found a

end Resolution

namespace RunnerScope

def resolve (scope : RunnerScope) (deadline : Deadline) : Program Resolution :=
  match scope with
  | .everything => .done (.scope .everything)
  | .group root =>
    .ask (.descendants root deadline) <| Resolution.ofLookup fun ids ↦
      .ask (.projects ids deadline) <| Resolution.ofLookup fun records ↦
        .done (.scope (Resolution.ofRecords ProjectRecord.acceptsGroupRunners records))
  | .project ids =>
    .ask (.projects ids deadline) <| Resolution.ofLookup fun records ↦
      .done (.scope (Resolution.ofRecords ProjectRecord.acceptsProjectRunners records))

end RunnerScope

end BuildQueue
