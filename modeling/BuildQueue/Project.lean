import BuildQueue.Id
import BuildQueue.OrderedSet

/-!
# Projects and scopes

A project says which kinds of runner may take its builds. A resolved scope is what a runner may see
of the queue: everything open to instance runners, or the builds of some projects.
-/

namespace BuildQueue

/-- What the queue knows of a project. -/
@[ext]
structure ProjectRecord where
  id : ProjectId
  namespaceId : NamespaceId
  buildsEnabled : Bool
  sharedRunnersEnabled : Bool
  groupRunnersEnabled : Bool
  pendingDelete : Bool
  deriving DecidableEq, Inhabited

namespace ProjectRecord

/-- A project open to all runners. -/
def opened (id : ProjectId) (namespaceId : NamespaceId) : ProjectRecord :=
  ⟨id, namespaceId, true, true, true, false⟩

def acceptsProjectRunners (p : ProjectRecord) : Bool := p.buildsEnabled && !p.pendingDelete

def acceptsGroupRunners (p : ProjectRecord) : Bool :=
  p.acceptsProjectRunners && p.groupRunnersEnabled

def acceptsInstanceRunners (p : ProjectRecord) : Bool :=
  p.acceptsProjectRunners && p.sharedRunnersEnabled

end ProjectRecord

/-- What a runner may see of the queue. -/
inductive ProjectScope where
  /-- The builds of all projects open to instance runners. -/
  | everything
  /-- The builds of these projects. -/
  | projects (ids : OrderedSet ProjectId)
  deriving DecidableEq

namespace ProjectScope

def empty : ProjectScope := .projects .empty

instance : Inhabited ProjectScope := ⟨empty⟩

def ofList (ids : List ProjectId) : ProjectScope := .projects (.ofList ids)

def isEmpty : ProjectScope → Bool
  | .everything => false
  | .projects ids => ids.isEmpty

/-- Whether builds of a project are in scope, given whether the project is open to instance
runners. -/
def admits (scope : ProjectScope) (project : ProjectId) (openToInstance : Bool) : Bool :=
  match scope with
  | .everything => openToInstance
  | .projects ids => project ∈ ids

/-- The projects named by the scope, in order. -/
def projectIds? : ProjectScope → Option (List ProjectId)
  | .everything => none
  | .projects ids => some ids.toList

end ProjectScope

end BuildQueue
