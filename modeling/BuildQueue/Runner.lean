import BuildQueue.Error
import BuildQueue.Tag

/-!
# Runners

A runner takes builds of everything, of a group of projects or of listed projects. A registration
declares a runner flatly; it denotes one if it declares exactly one of the three scopes.
-/

namespace BuildQueue

/-- Whose builds a runner takes. -/
inductive RunnerScope where
  | everything
  | group (namespaceId : NamespaceId)
  | project (projectIds : List ProjectId)
  deriving DecidableEq, Inhabited

def RunnerScope.kind : RunnerScope → String
  | .everything => "instance"
  | .group _ => "group"
  | .project _ => "project"

/-- An agent that runs builds. -/
@[ext]
structure Runner where
  id : RunnerId
  scope : RunnerScope
  tags : TagSet
  /-- Takes builds without tags. -/
  runUntagged : Bool
  /-- May run builds of protected refs. -/
  protectedRefAccess : Bool
  /-- A runner that is not active is paused and gets no builds. -/
  active : Bool
  deriving DecidableEq, Inhabited

/-- A runner as it declares itself. -/
@[ext]
structure Registration where
  id : RunnerId
  tags : List String
  runUntagged : Bool
  protectedRefAccess : Bool
  everything : Bool
  group : Option NamespaceId
  projects : List ProjectId
  active : Bool
  deriving DecidableEq, Inhabited

namespace Registration

/-- The scopes that a registration declares. -/
def scopes (reg : Registration) : List RunnerScope :=
  (if reg.everything then [.everything] else []) ++ reg.group.toList.map .group ++
    (if reg.projects.isEmpty then [] else [.project reg.projects])

def scope (reg : Registration) : Except QueueError RunnerScope :=
  match reg.scopes with
  | [scope] => .ok scope
  | [] => .error (.invalidScope s!"runner {reg.id} has no instance, group or project scope")
  | _ =>
    .error (.invalidScope
      s!"runner {reg.id} declares more than one of instance, group and project scope")

/-- The runner that a registration denotes. -/
def runner (reg : Registration) : Except QueueError Runner := do
  let scope ← reg.scope
  return {
    id := reg.id
    scope
    tags := .ofList reg.tags
    runUntagged := reg.runUntagged
    protectedRefAccess := reg.protectedRefAccess
    active := reg.active }

end Registration

end BuildQueue
