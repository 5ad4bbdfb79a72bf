import BuildQueue.Config.Basic
import BuildQueue.Json.Queue
import BuildQueue.Store.Basic

/-!
# The service in JSON

What polls come to, the metrics, the rows of the store and the configuration.
-/

namespace BuildQueue

open Json (needed)

namespace PollOutcome

def toJson : PollOutcome → Json
  | .assigned a => .ofTagged "result" "assigned" a.memberList
  | .empty => .ofTagged "result" "empty" []

def ofJson? (j : Json) : Option PollOutcome :=
  (j.tagged? "result" 0).bind fun (name, rest) ↦
    match name with
    | "assigned" => (Assignment.ofJson? rest).map .assigned
    | "empty" => if rest.isUnit then some .empty else none
    | _ => none

end PollOutcome

/-- A number of 64 bits without a sign. -/
def Json.unsigned64? (j : Json) : Option UInt64 :=
  j.int?.bind fun n ↦
    if IntegerRange.unsigned64.contains n then some (.ofNat n.toNat) else none

def Json.unsigned32? (j : Json) : Option UInt32 :=
  j.int?.bind fun n ↦
    if IntegerRange.unsigned32.contains n then some (.ofNat n.toNat) else none

namespace Metrics

def toJson (m : Metrics) : Json :=
  .ofMembers <| [("polls", m.polls), ("assigned", m.assigned), ("empty", m.empty),
    ("conflicts", m.conflicts), ("paused", m.paused), ("scope_failures", m.scopeFailures),
    ("failovers", m.failovers), ("timeouts", m.timeouts)].map
    fun (name, n) ↦ (name, .ofInt n.toNat)

def members : List Json.Member :=
  ["polls", "assigned", "empty", "conflicts", "paused", "scope_failures", "failovers",
    "timeouts"].map needed

def ofJson? (j : Json) : Option Metrics := do
  match ← j.members? members with
  | [some polls, some assigned, some empty, some conflicts, some paused, some scopeFailures,
      some failovers, some timeouts] =>
    return {
      polls := ← polls.unsigned64?
      assigned := ← assigned.unsigned64?
      empty := ← empty.unsigned64?
      conflicts := ← conflicts.unsigned64?
      paused := ← paused.unsigned64?
      scopeFailures := ← scopeFailures.unsigned64?
      failovers := ← failovers.unsigned64?
      timeouts := ← timeouts.unsigned64? }
  | _ => none

end Metrics

namespace BuildRow

def toJson (row : BuildRow) : Json :=
  .ofMembers [("id", row.id.toJson), ("project_id", row.projectId.toJson),
    ("namespace_id", row.namespaceId.toJson), ("status", row.status.toJson),
    ("tags", TagSet.toJson row.tags), ("ref_protected", .boolean row.refProtected),
    ("queued_at", .ofOption Instant.toJson row.queuedAt),
    ("runner_id", .ofOption Id.toJson row.runnerId),
    ("started_at", .ofOption Instant.toJson row.startedAt)]

def members : List Json.Member :=
  ["id", "project_id", "namespace_id", "status", "tags", "ref_protected"].map needed ++
    ["queued_at", "runner_id", "started_at"].map fun name ↦ ⟨name, .null⟩

def ofJson? (j : Json) : Option BuildRow := do
  match ← j.members? members with
  | [some id, some project, some nameSpace, some status, some tags, some refProtected,
      some queuedAt, some runner, some startedAt] =>
    return {
      id := ← Id.ofJson? id
      projectId := ← Id.ofJson? project
      namespaceId := ← Id.ofJson? nameSpace
      status := ← BuildStatus.ofJson? status
      tags := ← TagSet.ofJson? tags
      refProtected := ← refProtected.boolean?
      queuedAt := ← queuedAt.option? Instant.ofJson?
      runnerId := ← runner.option? Id.ofJson?
      startedAt := ← startedAt.option? Instant.ofJson? }
  | _ => none

end BuildRow

namespace Duration

def toJson (d : Duration) : Json :=
  .ofMembers [("secs", .ofInt d.seconds), ("nanos", .ofInt d.subsecond)]

/-- A duration has no other members. -/
def hasOnlyParts : Json → Bool
  | .object members => members.all fun m ↦ m.1 = some "secs" || m.1 = some "nanos"
  | _ => true

def ofJson? (j : Json) : Option Duration := do
  if !hasOnlyParts j then failure
  match ← j.members? (["secs", "nanos"].map needed) with
  | [some seconds, some nanos] =>
    ofParts? (← seconds.unsigned64?).toNat (← nanos.unsigned32?).toNat
  | _ => none

end Duration

namespace DatabaseConfig

def toJson (config : DatabaseConfig) : Json :=
  .ofMembers [("url", .ofString config.url),
    ("max_connections", .ofInt config.maxConnections.toNat)]

def ofJson? (j : Json) : Option DatabaseConfig := do
  match ← j.members? (["url", "max_connections"].map needed) with
  | [some url, some connections] =>
    return { url := ← url.string?, maxConnections := ← connections.unsigned32? }
  | _ => none

end DatabaseConfig

namespace QueueConfig

def toJson (config : QueueConfig) : Json :=
  .ofMembers [("strategy", config.strategy.toJson), ("failover", .boolean config.failover),
    ("poll_timeout", config.pollTimeout.toJson), ("backoff", config.backoff.toJson)]

def members : List Json.Member :=
  ["strategy", "failover", "poll_timeout", "backoff"].map needed

def ofJson? (j : Json) : Option QueueConfig := do
  match ← j.members? members with
  | [some strategy, some failover, some pollTimeout, some backoff] =>
    return {
      strategy := ← StrategyKind.ofJson? strategy
      failover := ← failover.boolean?
      pollTimeout := ← Duration.ofJson? pollTimeout
      backoff := ← Duration.ofJson? backoff }
  | _ => none

end QueueConfig

namespace SystemConfig

def toJson (config : SystemConfig) : Json :=
  .ofMembers [("database", config.database.toJson), ("queue", config.queue.toJson)]

def ofJson? (j : Json) : Option SystemConfig := do
  match ← j.members? (["database", "queue"].map needed) with
  | [some database, some queue] =>
    return { database := ← DatabaseConfig.ofJson? database, queue := ← QueueConfig.ofJson? queue }
  | _ => none

end SystemConfig

end BuildQueue
