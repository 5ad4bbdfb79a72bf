import BuildQueue.Json.Service
import BuildQueue.Proofs.Json.Queue

/-!
# The service read back

What polls come to, the metrics, the rows of the store and the configuration are read faithfully
like the queue. With them all types that the service writes lose nothing in a text.
-/

namespace BuildQueue

open Json (Agree Faithful Fields Layout Lossless RecordAlike RecordPart TextsAlike decode? exactly)

/-! ## Numbers -/

namespace Json

theorem unsigned64?_ofInt {n : Nat} (h : n < UInt64.size) :
    (ofInt n).unsigned64? = some (.ofNat n) := by
  have hhighest : (n : Int) ≤ 18446744073709551615 := Int.ofNat_le.2 (Nat.le_of_lt_succ h)
  exact if_pos (IntegerRange.contains_iff.2 ⟨Int.natCast_nonneg n, hhighest⟩)

theorem unsigned32?_ofInt {n : Nat} (h : n < UInt32.size) :
    (ofInt n).unsigned32? = some (.ofNat n) := by
  have hhighest : (n : Int) ≤ 4294967295 := Int.ofNat_le.2 (Nat.le_of_lt_succ h)
  exact if_pos (IntegerRange.contains_iff.2 ⟨Int.natCast_nonneg n, hhighest⟩)

theorem unsigned64_faithful :
    Faithful (fun n : UInt64 ↦ ofInt n.toNat) unsigned64? .exact := by
  refine .of_read_write (fun n ↦ .integer _) fun n ↦ ?_
  rw [unsigned64?_ofInt n.toNat_lt_size, UInt64.ofNat_toNat]

theorem unsigned32_faithful :
    Faithful (fun n : UInt32 ↦ ofInt n.toNat) unsigned32? .exact := by
  refine .of_read_write (fun n ↦ .integer _) fun n ↦ ?_
  rw [unsigned32?_ofInt n.toNat_lt_size, UInt32.ofNat_toNat]

end Json

/-! ## Poll outcomes -/

namespace PollOutcome

def fields : Fields := exactly ["result", "job_id", "runner_id", "claimed_at"]

theorem faithful : Faithful toJson ofJson? (.record fields) where
  writable outcome := by
    cases outcome with
    | assigned a =>
      exact .members (List.forall_mem_cons.2 ⟨.string _, List.forall_iff_forall_mem.1
        ⟨Id.faithful.writable _, Id.faithful.writable _, Instant.faithful.writable _⟩⟩)
    | empty => exact .members (List.forall_mem_singleton.2 (.string _))
  read_write outcome := by
    cases outcome with
    | assigned a =>
      have htagged : (toJson (assigned a)).tagged? "result" 0 = some ("assigned", a.toJson) := by
        refine Json.tagged?_ofTagged (by simp [Assignment.memberList]) ?_ ?_
        · simp [Assignment.memberList, Json.ofMembers, Json.isSound, Json.isSoundMembers,
            Id.isSound_toJson, Instant.toJson, Json.ofString]
        · simp [Assignment.memberList, Json.ofMembers, Json.depth, Json.depthMembers,
            Id.depth_toJson, Instant.toJson, Json.ofString, Json.deepest]
      rw [ofJson?, htagged, Option.bind_some]
      change (Assignment.ofJson? a.toJson).map assigned = some (assigned a)
      rw [Assignment.faithful.read_write, Option.map_some]
    | empty => rfl
  agree := by
    intro j k h a b ha hb
    obtain ⟨⟨name, rest⟩, hj, ha⟩ := Option.bind_eq_some_iff.1 ha
    obtain ⟨⟨name', rest'⟩, hk, hb⟩ := Option.bind_eq_some_iff.1 hb
    obtain ⟨rfl, hrest⟩ := Json.tagged?_alike h (by simp) hj hk
    dsimp only at ha hb
    split at ha
    next =>
      have hassigned := Assignment.layout.agree (hrest _ (List.Subset.refl _))
      exact hassigned.map assigned a b ha hb
    next =>
      obtain ⟨-, ha⟩ := Option.ite_none_right_eq_some.1 ha
      obtain ⟨-, hb⟩ := Option.ite_none_right_eq_some.1 hb
      exact Option.some.inj (ha.symm.trans hb)
    next => cases ha

end PollOutcome

/-! ## Metrics -/

namespace Metrics

def fields : Fields :=
  exactly ["polls", "assigned", "empty", "conflicts", "paused", "scope_failures", "failovers",
    "timeouts"]

def parts : List (RecordPart Metrics) :=
  [Json.unsigned64_faithful.part "polls" (·.polls),
    Json.unsigned64_faithful.part "assigned" (·.assigned),
    Json.unsigned64_faithful.part "empty" (·.empty),
    Json.unsigned64_faithful.part "conflicts" (·.conflicts),
    Json.unsigned64_faithful.part "paused" (·.paused),
    Json.unsigned64_faithful.part "scope_failures" (·.scopeFailures),
    Json.unsigned64_faithful.part "failovers" (·.failovers),
    Json.unsigned64_faithful.part "timeouts" (·.timeouts)]

def layout : Layout ofJson? parts where
  members
  ofValues := _
  read_eq _ := rfl
  names := rfl
  nodup := by decide
  read_back m := by
    simp [parts, Json.unsigned64_faithful.read_write]
  isRead {_ m} h := by
    split at h
    next =>
      cases m
      simpa [parts, Option.bind_eq_some_iff, -Bool.exists_bool] using h
    next => cases h

theorem faithful : Faithful toJson ofJson? (.record fields) := layout.faithful fun _ ↦ rfl

end Metrics

/-! ## Rows -/

namespace BuildRow

def fields : Fields :=
  [("id", .exact), ("project_id", .exact), ("namespace_id", .exact), ("status", .exact),
    ("tags", .set), ("ref_protected", .exact), ("queued_at", .exact), ("runner_id", .exact),
    ("started_at", .exact)]

theorem time_faithful : Faithful (Json.ofOption Instant.toJson) (Json.option? Instant.ofJson?)
    .exact := Instant.faithful.option fun _ ↦ Json.noConfusion

theorem runner_faithful : Faithful (Json.ofOption (Id.toJson (r := .runner)))
    (Json.option? Id.ofJson?) .exact := Id.faithful.option fun _ ↦ Json.noConfusion

def parts : List (RecordPart BuildRow) :=
  [Id.faithful.part "id" (·.id), Id.faithful.part "project_id" (·.projectId),
    Id.faithful.part "namespace_id" (·.namespaceId),
    BuildStatus.faithful.part "status" (·.status), TagSet.faithful.part "tags" (·.tags),
    Json.boolean_faithful.part "ref_protected" (·.refProtected),
    time_faithful.part "queued_at" (·.queuedAt), runner_faithful.part "runner_id" (·.runnerId),
    time_faithful.part "started_at" (·.startedAt)]

def layout : Layout ofJson? parts where
  members
  ofValues := _
  read_eq _ := rfl
  names := rfl
  nodup := by decide
  read_back row := by
    simp [parts, Id.faithful.read_write, BuildStatus.faithful.read_write,
      TagSet.faithful.read_write, Json.boolean?, time_faithful.read_write,
      runner_faithful.read_write]
  isRead {_ row} h := by
    split at h
    next =>
      cases row
      simpa [parts, Option.bind_eq_some_iff, -Bool.exists_bool] using h
    next => cases h

theorem faithful : Faithful toJson ofJson? (.record fields) := layout.faithful fun _ ↦ rfl

end BuildRow

/-! ## Configuration -/

namespace Duration

def fields : Fields := exactly ["secs", "nanos"]

/-- The length is the whole seconds and the nanoseconds beyond them. -/
theorem ofParts?_seconds_subsecond (d : Duration) : ofParts? d.seconds d.subsecond = some d := by
  have htotal : d.seconds * nanosPerSecond + d.subsecond = d.nanos :=
    Nat.div_add_mod' d.nanos nanosPerSecond
  rw [ofParts?, htotal]
  exact dif_pos d.nanos_lt

theorem faithful : Faithful toJson ofJson? (.record fields) where
  writable d := .members (List.forall_iff_forall_mem.1 ⟨.integer _, .integer _⟩)
  read_write d := by
    have hlt := d.nanos_lt
    have hseconds : d.seconds < UInt64.size := by
      unfold seconds nanosPerSecond
      omega
    have hsubsecond : d.subsecond < UInt32.size :=
      (Nat.mod_lt d.nanos (by decide)).trans (by decide)
    change ((Json.ofInt d.seconds).unsigned64?.bind fun s ↦
      (Json.ofInt d.subsecond).unsigned32?.bind fun n ↦ ofParts? s.toNat n.toNat) = some d
    rw [Json.unsigned64?_ofInt hseconds, Json.unsigned32?_ofInt hsubsecond, Option.bind_some,
      Option.bind_some, UInt64.toNat_ofNat_of_lt' hseconds, UInt32.toNat_ofNat_of_lt' hsubsecond,
      ofParts?_seconds_subsecond]
  agree := by
    intro j k h a b ha hb
    unfold ofJson? at ha hb
    split at ha
    next => cases ha
    next =>
      split at hb
      next => cases hb
      next =>
        refine Json.agree_members? (by rfl) (fun vs ws h ↦ ?_) h.valuesAlike a b ha hb
        split
        next =>
          split
          next =>
            obtain ⟨hseconds, hnanos, -⟩ := h
            exact (Json.unsigned64_faithful.agree hseconds).bind fun _ ↦
              (Json.unsigned32_faithful.agree hnanos).bind fun _ ↦ .refl _
          next => exact .none_right _
        next => exact .of_none _

end Duration

namespace DatabaseConfig

def fields : Fields := exactly ["url", "max_connections"]

def parts : List (RecordPart DatabaseConfig) :=
  [Json.string_faithful.part "url" (·.url),
    Json.unsigned32_faithful.part "max_connections" (·.maxConnections)]

def layout : Layout ofJson? parts where
  members := ["url", "max_connections"].map Json.needed
  ofValues := _
  read_eq _ := rfl
  names := rfl
  nodup := by decide
  read_back config := by
    simp [parts, Json.string_faithful.read_write, Json.unsigned32_faithful.read_write]
  isRead {_ config} h := by
    split at h
    next =>
      cases config
      simpa [parts, Option.bind_eq_some_iff, -Bool.exists_bool] using h
    next => cases h

theorem faithful : Faithful toJson ofJson? (.record fields) := layout.faithful fun _ ↦ rfl

end DatabaseConfig

namespace QueueConfig

def fields : Fields :=
  [("strategy", .exact), ("failover", .exact), ("poll_timeout", .record Duration.fields),
    ("backoff", .record Duration.fields)]

def parts : List (RecordPart QueueConfig) :=
  [StrategyKind.faithful.part "strategy" (·.strategy),
    Json.boolean_faithful.part "failover" (·.failover),
    Duration.faithful.part "poll_timeout" (·.pollTimeout),
    Duration.faithful.part "backoff" (·.backoff)]

def layout : Layout ofJson? parts where
  members
  ofValues := _
  read_eq _ := rfl
  names := rfl
  nodup := by decide
  read_back config := by
    simp [parts, StrategyKind.faithful.read_write, Json.boolean?, Duration.faithful.read_write]
  isRead {_ config} h := by
    split at h
    next =>
      cases config
      simpa [parts, Option.bind_eq_some_iff, -Bool.exists_bool] using h
    next => cases h

theorem faithful : Faithful toJson ofJson? (.record fields) := layout.faithful fun _ ↦ rfl

end QueueConfig

namespace SystemConfig

def fields : Fields :=
  [("database", .record DatabaseConfig.fields), ("queue", .record QueueConfig.fields)]

def parts : List (RecordPart SystemConfig) :=
  [DatabaseConfig.faithful.part "database" (·.database),
    QueueConfig.faithful.part "queue" (·.queue)]

def layout : Layout ofJson? parts where
  members := ["database", "queue"].map Json.needed
  ofValues := _
  read_eq _ := rfl
  names := rfl
  nodup := by decide
  read_back config := by
    simp [parts, DatabaseConfig.faithful.read_write, QueueConfig.faithful.read_write]
  isRead {_ config} h := by
    split at h
    next =>
      cases config
      simpa [parts, Option.bind_eq_some_iff, -Bool.exists_bool] using h
    next => cases h

theorem faithful : Faithful toJson ofJson? (.record fields) := layout.faithful fun _ ↦ rfl

end SystemConfig

/-! ## All types -/

/-- What is written of a value is read as this value again, whatever ids, texts and times it has.
Texts that say the same in another order, with other blanks, with further members, or with the
items of sets repeated, are read as the same value. -/
theorem texts_lose_nothing :
    Lossless QueuedBuild.toJson QueuedBuild.ofJson? (.record QueuedBuild.fields) ∧
    Lossless Assignment.toJson Assignment.ofJson? (.record Assignment.fields) ∧
    Lossless BuildRow.toJson BuildRow.ofJson? (.record BuildRow.fields) ∧
    Lossless ProjectRecord.toJson ProjectRecord.ofJson? (.record ProjectRecord.fields) ∧
    Lossless ProjectScope.toJson ProjectScope.ofJson? (.record ProjectScope.fields) ∧
    Lossless RunnerScope.toJson (RunnerScope.ofJson? 0) (.record RunnerScope.fields) ∧
    Lossless Runner.toJson Runner.ofJson? (.record Runner.fields) ∧
    Lossless Registration.toJson Registration.ofJson? (.record Registration.fields) ∧
    Lossless TagSet.toJson TagSet.ofJson? .set ∧
    Lossless PollOutcome.toJson PollOutcome.ofJson? (.record PollOutcome.fields) ∧
    Lossless Metrics.toJson Metrics.ofJson? (.record Metrics.fields) ∧
    Lossless SystemConfig.toJson SystemConfig.ofJson? (.record SystemConfig.fields) :=
  ⟨QueuedBuild.faithful.lossless, Assignment.faithful.lossless, BuildRow.faithful.lossless,
    ProjectRecord.faithful.lossless, ProjectScope.faithful.lossless,
    (RunnerScope.faithful (by decide)).lossless, Runner.faithful.lossless,
    Registration.faithful.lossless, TagSet.faithful.lossless, PollOutcome.faithful.lossless,
    Metrics.faithful.lossless, SystemConfig.faithful.lossless⟩

namespace Runner

def tagged : Runner := ⟨⟨1⟩, .everything, .ofList ["a", "b"], true, false, true⟩

/-- The runner with a member more, its tags first, and one of them twice. -/
def taggedShuffled : Json :=
  .ofMembers [("note", .null), ("tags", .array [.ofString "b", .ofString "a", .ofString "b"]),
    ("id", .ofInt 1), ("scope", .ofTagged "type" "instance" []), ("run_untagged", .boolean true),
    ("protected_ref_access", .boolean false), ("active", .boolean true)]

theorem alike_taggedShuffled : RecordAlike fields tagged.toJson taggedShuffled := by
  have htags : Json.SetAlike (TagSet.toJson tagged.tags)
      (.array [.ofString "b", .ofString "a", .ofString "b"]) := by
    have hordered : TagSet.toJson tagged.tags = .array [.ofString "a", .ofString "b"] := rfl
    rw [hordered]
    exact .items fun j ↦ by simp; tauto
  have hmiddle {m n t : Json.Text × Json} {ms : List (Json.Text × Json)} :
      ([m, n] ++ t :: ms).Perm (t :: ([m, n] ++ ms)) := List.perm_middle
  have horder : RecordAlike fields tagged.toJson _ := .order hmiddle
  refine horder.trans (.trans (.value ?_ _) (.other ?_ .null _))
  · intro f hf hname
    simp only [fields, List.mem_cons, List.not_mem_nil, or_false] at hf
    rcases hf with rfl | rfl | rfl | rfl | rfl | rfl
    case inr.inr.inl => exact htags
    all_goals simp at hname
  · simp [fields]

end Runner

/-- A runner is read from a text with another order, more blanks, a member more and a tag twice. -/
theorem texts_lose_nothing_shuffled :
    TextsAlike (.record Runner.fields) Runner.tagged.toJson.compact
      (Runner.taggedShuffled.pretty 0) ∧
    decode? Runner.ofJson? (Runner.taggedShuffled.pretty 0) = some Runner.tagged := by
  obtain ⟨-, -, -, -, -, -, hrunner, -⟩ := texts_lose_nothing
  have hplain := Json.parse?_withoutBlanks (Runner.faithful.writable Runner.tagged).parse?_compact
  have hwritable : Runner.taggedShuffled.Writable :=
    .members (List.forall_iff_forall_mem.1 ⟨.null,
      Json.string_faithful.writable_list ["b", "a", "b"], .integer 1,
      .members (List.forall_mem_singleton.2 (.string _)), .boolean _, .boolean _, .boolean _⟩)
  have hblanks : Json.withoutBlanks (Runner.taggedShuffled.pretty 0) =
      Runner.taggedShuffled.compact := by decide +kernel
  have halike : TextsAlike (.record Runner.fields) Runner.tagged.toJson.compact
      (Runner.taggedShuffled.pretty 0) :=
    ⟨_, _, hplain, hblanks ▸ hwritable.parse?_compact, Runner.alike_taggedShuffled⟩
  obtain ⟨runner, hread⟩ : ∃ runner, decode? Runner.ofJson? (Runner.taggedShuffled.pretty 0) =
      some runner := Option.isSome_iff_exists.1 (by decide +kernel)
  obtain ⟨rfl, -⟩ := hrunner.eq_of_textsAlike halike (hrunner.decode?_compact _) hread
  exact ⟨halike, hread⟩

end BuildQueue
