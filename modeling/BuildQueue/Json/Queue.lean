import BuildQueue.Build
import BuildQueue.Json.Record
import BuildQueue.Project
import BuildQueue.Runner
import BuildQueue.Strategy
import BuildQueue.Time.Rfc3339

/-!
# The queue in JSON

Ids are integers, times are RFC 3339 texts, sets are lists, and words stand for the values without
members.
-/

namespace BuildQueue

open Json (needed)

namespace Id

variable {r : Resource}

def toJson (i : Id r) : Json := .ofInt i.toInt

def ofJson? (j : Json) : Option (Id r) := j.int?.bind ofInt?

end Id

namespace Instant

def toJson (t : Instant) : Json := .ofString (String.ofList (Rfc3339.write t))

def ofJson? (j : Json) : Option Instant := j.string?.bind fun s ↦ Rfc3339.parse? s.toList

end Instant

namespace TagSet

def toJson (tags : TagSet) : Json := .array (tags.toList.map .ofString)

def ofJson? (j : Json) : Option TagSet := (j.list? Json.string?).map .ofList

end TagSet

namespace BuildStatus

def toJson (status : BuildStatus) : Json := .ofString status.name

def ofJson? (j : Json) : Option BuildStatus := j.word?.bind ofName?

end BuildStatus

namespace StrategyKind

def toJson (kind : StrategyKind) : Json := .ofString kind.name

/-- Only the names are known here, not the names of the tables. -/
def ofJson? (j : Json) : Option StrategyKind := j.word?.bind ofName?

end StrategyKind

namespace JobRejection

def toJson (rejection : JobRejection) : Json := .ofString rejection.reason

def ofJson? (j : Json) : Option JobRejection :=
  j.word?.bind fun s ↦ if s = quotaExceeded.reason then some quotaExceeded else none

end JobRejection

namespace QueuedBuild

def toJson (b : QueuedBuild) : Json :=
  .ofMembers [("job_id", b.jobId.toJson), ("project_id", b.projectId.toJson),
    ("namespace_id", b.namespaceId.toJson), ("tags", TagSet.toJson b.tags),
    ("ref_protected", .boolean b.refProtected), ("queued_at", b.queuedAt.toJson)]

def members : List Json.Member :=
  ["job_id", "project_id", "namespace_id", "tags", "ref_protected", "queued_at"].map needed

def ofJson? (j : Json) : Option QueuedBuild := do
  match ← j.members? members with
  | [some job, some project, some nameSpace, some tags, some refProtected, some queuedAt] =>
    return {
      jobId := ← Id.ofJson? job
      projectId := ← Id.ofJson? project
      namespaceId := ← Id.ofJson? nameSpace
      tags := ← TagSet.ofJson? tags
      refProtected := ← refProtected.boolean?
      queuedAt := ← Instant.ofJson? queuedAt }
  | _ => none

end QueuedBuild

namespace Assignment

def memberList (a : Assignment) : List (String × Json) :=
  [("job_id", a.jobId.toJson), ("runner_id", a.runnerId.toJson),
    ("claimed_at", a.claimedAt.toJson)]

def toJson (a : Assignment) : Json := .ofMembers a.memberList

def members : List Json.Member := ["job_id", "runner_id", "claimed_at"].map needed

def ofJson? (j : Json) : Option Assignment := do
  match ← j.members? members with
  | [some job, some runner, some claimedAt] =>
    return {
      jobId := ← Id.ofJson? job
      runnerId := ← Id.ofJson? runner
      claimedAt := ← Instant.ofJson? claimedAt }
  | _ => none

end Assignment

namespace ProjectRecord

def toJson (p : ProjectRecord) : Json :=
  .ofMembers [("id", p.id.toJson), ("namespace_id", p.namespaceId.toJson),
    ("builds_enabled", .boolean p.buildsEnabled),
    ("shared_runners_enabled", .boolean p.sharedRunnersEnabled),
    ("group_runners_enabled", .boolean p.groupRunnersEnabled),
    ("pending_delete", .boolean p.pendingDelete)]

def members : List Json.Member :=
  ["id", "namespace_id", "builds_enabled", "shared_runners_enabled", "group_runners_enabled",
    "pending_delete"].map needed

def ofJson? (j : Json) : Option ProjectRecord := do
  match ← j.members? members with
  | [some id, some nameSpace, some builds, some shared, some group, some pendingDelete] =>
    return {
      id := ← Id.ofJson? id
      namespaceId := ← Id.ofJson? nameSpace
      buildsEnabled := ← builds.boolean?
      sharedRunnersEnabled := ← shared.boolean?
      groupRunnersEnabled := ← group.boolean?
      pendingDelete := ← pendingDelete.boolean? }
  | _ => none

end ProjectRecord

namespace ProjectScope

def toJson : ProjectScope → Json
  | .everything => .ofString "Instance"
  | .projects ids => .ofMembers [("Projects", .array (ids.toList.map Id.toJson))]

def ofJson? (j : Json) : Option ProjectScope :=
  match j with
  | .object [(some "Projects", ids)] => (ids.list? Id.ofJson?).map ofList
  | j => j.word?.bind fun s ↦ if s = "Instance" then some .everything else none

end ProjectScope

namespace RunnerScope

def toJson : RunnerScope → Json
  | .everything => .ofTagged "type" "instance" []
  | .group namespaceId => .ofTagged "type" "group" [("namespace_id", namespaceId.toJson)]
  | .project ids => .ofTagged "type" "project" [("project_ids", .array (ids.map Id.toJson))]

/-- The scope with a tag and the rest of its members. -/
def ofTag? (name : String) (rest : Json) : Option RunnerScope :=
  match name with
  | "instance" => if rest.isUnit then some .everything else none
  | "group" => do
    match ← rest.members? [needed "namespace_id"] with
    | [some namespaceId] => return .group (← Id.ofJson? namespaceId)
    | _ => none
  | "project" => do
    match ← rest.members? [needed "project_ids"] with
    | [some ids] => return .project (← ids.list? Id.ofJson?)
    | _ => none
  | _ => none

/-- A scope inside so many containers. -/
def ofJson? (outer : Nat) (j : Json) : Option RunnerScope :=
  (j.tagged? "type" outer).bind fun (name, rest) ↦ ofTag? name rest

end RunnerScope

namespace Runner

def toJson (r : Runner) : Json :=
  .ofMembers [("id", r.id.toJson), ("scope", r.scope.toJson), ("tags", TagSet.toJson r.tags),
    ("run_untagged", .boolean r.runUntagged),
    ("protected_ref_access", .boolean r.protectedRefAccess), ("active", .boolean r.active)]

def members : List Json.Member :=
  ["id", "scope", "tags", "run_untagged", "protected_ref_access", "active"].map needed

def ofJson? (j : Json) : Option Runner := do
  match ← j.members? members with
  | [some id, some scope, some tags, some untagged, some protectedRefs, some active] =>
    return {
      id := ← Id.ofJson? id
      scope := ← RunnerScope.ofJson? 1 scope
      tags := ← TagSet.ofJson? tags
      runUntagged := ← untagged.boolean?
      protectedRefAccess := ← protectedRefs.boolean?
      active := ← active.boolean? }
  | _ => none

end Runner

namespace Registration

def toJson (reg : Registration) : Json :=
  .ofMembers [("id", reg.id.toJson), ("tags", .array (reg.tags.map .ofString)),
    ("run_untagged", .boolean reg.runUntagged),
    ("protected_ref_access", .boolean reg.protectedRefAccess),
    ("instance", .boolean reg.everything), ("group", .ofOption Id.toJson reg.group),
    ("projects", .array (reg.projects.map Id.toJson)), ("active", .boolean reg.active)]

/-- Only the id has to be given. -/
def members : List Json.Member :=
  needed "id" :: ["tags", "run_untagged", "protected_ref_access", "instance", "group", "projects",
    "active"].map fun name ↦ ⟨name, .standard⟩

def ofJson? (j : Json) : Option Registration := do
  match ← j.members? members with
  | [some id, tags, untagged, protectedRefs, everything, group, projects, active] =>
    return {
      id := ← Id.ofJson? id
      tags := ← Json.orDefault [] (Json.list? Json.string?) tags
      runUntagged := ← Json.orDefault true Json.boolean? untagged
      protectedRefAccess := ← Json.orDefault false Json.boolean? protectedRefs
      everything := ← Json.orDefault false Json.boolean? everything
      group := ← Json.orDefault none (Json.option? Id.ofJson?) group
      projects := ← Json.orDefault [] (Json.list? Id.ofJson?) projects
      active := ← Json.orDefault true Json.boolean? active }
  | _ => none

end Registration

end BuildQueue
