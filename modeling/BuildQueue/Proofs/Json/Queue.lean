import BuildQueue.Json.Queue
import BuildQueue.Proofs.Json.Record
import BuildQueue.Proofs.Time.Rfc3339
import Mathlib.Tactic.Simproc.ExistsAndEq

/-!
# The queue read back

Ids, times, tags, builds, projects, runners and their scopes are read faithfully. Each record names
its members with their likenesses: tags and the ids of a resolved scope are sets, a scope within a
runner is a record, and everything else has to be equal. The parts of a record say how each of these
members is written and read.
-/

namespace BuildQueue

open Json (Agree Faithful Fields Layout RecordPart exactly)

/-! ## Values -/

theorem Id.faithful {r : Resource} : Faithful (Id.toJson (r := r)) Id.ofJson? .exact :=
  .of_read_write (fun i ↦ .integer i.toInt) fun i ↦ Id.ofInt?_toInt i

theorem Instant.faithful : Faithful Instant.toJson Instant.ofJson? .exact := by
  refine .of_read_write (fun t ↦ .string _) fun t ↦ ?_
  unfold ofJson? toJson Json.ofString Json.string?
  rw [Option.bind_some, String.toList_ofList, Rfc3339.parse?_write]

theorem Json.boolean_faithful : Faithful Json.boolean Json.boolean? .exact :=
  .of_read_write .boolean fun _ ↦ rfl

theorem Json.string_faithful : Faithful Json.ofString Json.string? .exact :=
  .of_read_write .string fun _ ↦ rfl

theorem TagSet.faithful : Faithful TagSet.toJson TagSet.ofJson? .set :=
  Json.string_faithful.set

theorem BuildStatus.faithful : Faithful BuildStatus.toJson BuildStatus.ofJson? .exact :=
  .of_read_write (fun _ ↦ .string _) BuildStatus.ofName?_name

theorem StrategyKind.faithful : Faithful StrategyKind.toJson StrategyKind.ofJson? .exact :=
  .of_read_write (fun _ ↦ .string _) StrategyKind.ofName?_name

namespace Id

variable {r : Resource}

theorem isSound_toJson (i : Id r) : i.toJson.isSound = true := by
  have hlow := Int64.le_toInt i.value
  have hhigh := Int64.toInt_lt i.value
  have hoverflow : 2 ^ 64 < Json.Number.overflow := by decide
  have hfinite : i.toInt.natAbs < Json.Number.overflow := by
    unfold toInt
    omega
  exact decide_eq_true hfinite

theorem depth_toJson (i : Id r) : i.toJson.depth = 0 := rfl

theorem isSoundItems_map_toJson (ids : List (Id r)) :
    Json.isSoundItems (ids.map toJson) = true := by
  induction ids with
  | nil => rfl
  | cons i ids ih => rw [List.map_cons, Json.isSoundItems, isSound_toJson, ih, Bool.and_self]

theorem depthItems_map_toJson (ids : List (Id r)) : Json.depthItems (ids.map toJson) = 0 := by
  induction ids with
  | nil => rfl
  | cons i ids ih =>
    rw [List.map_cons, Json.depthItems, depth_toJson, ih, Nat.max_self]

end Id

/-! ## Records -/

namespace QueuedBuild

def fields : Fields :=
  [("job_id", .exact), ("project_id", .exact), ("namespace_id", .exact), ("tags", .set),
    ("ref_protected", .exact), ("queued_at", .exact)]

def parts : List (RecordPart QueuedBuild) :=
  [Id.faithful.part "job_id" (·.jobId), Id.faithful.part "project_id" (·.projectId),
    Id.faithful.part "namespace_id" (·.namespaceId), TagSet.faithful.part "tags" (·.tags),
    Json.boolean_faithful.part "ref_protected" (·.refProtected),
    Instant.faithful.part "queued_at" (·.queuedAt)]

def layout : Layout ofJson? parts where
  members
  ofValues := _
  read_eq _ := rfl
  names := rfl
  nodup := by decide
  read_back b := by
    simp [parts, Id.faithful.read_write, TagSet.faithful.read_write, Json.boolean?,
      Instant.faithful.read_write]
  isRead {_ b} h := by
    split at h
    next =>
      cases b
      simpa [parts, Option.bind_eq_some_iff, -Bool.exists_bool] using h
    next => cases h

theorem faithful : Faithful toJson ofJson? (.record fields) := layout.faithful fun _ ↦ rfl

end QueuedBuild

namespace Assignment

def fields : Fields := exactly ["job_id", "runner_id", "claimed_at"]

def parts : List (RecordPart Assignment) :=
  [Id.faithful.part "job_id" (·.jobId), Id.faithful.part "runner_id" (·.runnerId),
    Instant.faithful.part "claimed_at" (·.claimedAt)]

def layout : Layout ofJson? parts where
  members
  ofValues := _
  read_eq _ := rfl
  names := rfl
  nodup := by decide
  read_back a := by
    simp [parts, Id.faithful.read_write, Instant.faithful.read_write]
  isRead {_ a} h := by
    split at h
    next =>
      cases a
      simpa [parts, Option.bind_eq_some_iff, -Bool.exists_bool] using h
    next => cases h

theorem faithful : Faithful toJson ofJson? (.record fields) := layout.faithful fun _ ↦ rfl

end Assignment

namespace ProjectRecord

def fields : Fields :=
  exactly ["id", "namespace_id", "builds_enabled", "shared_runners_enabled",
    "group_runners_enabled", "pending_delete"]

def parts : List (RecordPart ProjectRecord) :=
  [Id.faithful.part "id" (·.id), Id.faithful.part "namespace_id" (·.namespaceId),
    Json.boolean_faithful.part "builds_enabled" (·.buildsEnabled),
    Json.boolean_faithful.part "shared_runners_enabled" (·.sharedRunnersEnabled),
    Json.boolean_faithful.part "group_runners_enabled" (·.groupRunnersEnabled),
    Json.boolean_faithful.part "pending_delete" (·.pendingDelete)]

def layout : Layout ofJson? parts where
  members
  ofValues := _
  read_eq _ := rfl
  names := rfl
  nodup := by decide
  read_back p := by
    simp [parts, Id.faithful.read_write, Json.boolean?]
  isRead {_ p} h := by
    split at h
    next =>
      cases p
      simpa [parts, Option.bind_eq_some_iff, -Bool.exists_bool] using h
    next => cases h

theorem faithful : Faithful toJson ofJson? (.record fields) := layout.faithful fun _ ↦ rfl

end ProjectRecord

namespace ProjectScope

def fields : Fields := [("Projects", .set)]

/-- A scope is an object of its ids alone, or it is everything. -/
theorem ofJson?_cases {j : Json} {scope : ProjectScope} (h : ofJson? j = some scope) :
    (∃ ids set, j = .object [(some "Projects", ids)] ∧
      (ids.list? Id.ofJson?).map .ofList = some set ∧ scope = .projects set) ∨
    (scope = .everything ∧
      (j = .ofString "Instance" ∨ j = .object [(some "Instance", .null)])) := by
  unfold ofJson? at h
  split at h
  next ids =>
    obtain ⟨list, hlist, rfl⟩ := Option.map_eq_some_iff.1 h
    exact .inl ⟨ids, .ofList list, rfl, by rw [hlist]; rfl, rfl⟩
  next =>
    obtain ⟨word, hword, hscope⟩ := Option.bind_eq_some_iff.1 h
    obtain ⟨rfl, hscope⟩ := Option.ite_none_right_eq_some.1 hscope
    refine .inr ⟨(Option.some.inj hscope).symm, ?_⟩
    unfold Json.word? at hword
    split at hword
    next => exact .inl (congrArg Json.string hword)
    next =>
      obtain rfl := Option.some.inj hword
      exact .inr rfl
    next => cases hword

theorem faithful : Faithful toJson ofJson? (.record fields) := by
  have hids := (Id.faithful (r := .project)).set
  refine ⟨fun scope ↦ ?_, fun scope ↦ ?_, fun {j k} h a b ha hb ↦ ?_⟩
  · cases scope with
    | everything => exact .string _
    | projects ids => exact .members (List.forall_mem_singleton.2 (hids.writable ids))
  · cases scope with
    | everything => rfl
    | projects ids =>
      have hread := hids.read_write ids
      obtain ⟨list, hlist, hset⟩ := Option.map_eq_some_iff.1 hread
      exact Option.map_eq_some_iff.2 ⟨list, hlist, congrArg projects hset⟩
  · -- The ids are a member that is missing from the other form of a scope.
    have hfields : Json.Describes fields [⟨"Projects", .standard⟩] := rfl
    have hread (vs ws : List (Option Json)) (hv : j.members? [⟨"Projects", .standard⟩] = some vs)
        (hw : k.members? [⟨"Projects", .standard⟩] = some ws) : Json.ReadAlike fields vs ws :=
      Json.readAlike_members? hfields h.valuesAlike hv hw
    rcases ofJson?_cases ha with ⟨ids, set, rfl, hset, rfl⟩ | ⟨rfl, hj⟩ <;>
      rcases ofJson?_cases hb with ⟨ids', set', rfl, hset', rfl⟩ | ⟨rfl, hk⟩
    · obtain ⟨halike, -⟩ := hread [some ids] [some ids'] rfl rfl
      exact congrArg projects (hids.agree halike _ _ hset hset')
    · rcases hk with rfl | rfl
      · cases h.valuesAlike
      · obtain ⟨halike, -⟩ := hread [some ids] [none] rfl rfl
        cases halike
    · rcases hj with rfl | rfl
      · cases h.valuesAlike
      · obtain ⟨halike, -⟩ := hread [none] [some ids'] rfl rfl
        cases halike
    · rfl

end ProjectScope

namespace RunnerScope

def fields : Fields := exactly ["type", "namespace_id", "project_ids"]

/-- A tag and what goes with it are read alike from values that are alike. -/
theorem agree_ofTag? (name : String) {rest rest' : Json}
    (h : ∀ sub ⊆ ["namespace_id", "project_ids"], Json.ValuesAlike (exactly sub) rest rest') :
    Agree (ofTag? name rest) (ofTag? name rest') := by
  unfold ofTag?
  split
  next =>
    intro a b ha hb
    obtain ⟨-, ha⟩ := Option.ite_none_right_eq_some.1 ha
    obtain ⟨-, hb⟩ := Option.ite_none_right_eq_some.1 hb
    exact Option.some.inj (ha.symm.trans hb)
  next => exact Id.faithful.agree_single group (h ["namespace_id"] (by simp))
  next => exact Id.faithful.list.agree_single project (h ["project_ids"] (by simp))
  next => exact .refl _

/-- A scope is read faithfully unless the containers around it are too many. -/
theorem faithful {outer : Nat} (houter : outer + 2 ≤ Json.deepest) :
    Faithful toJson (ofJson? outer) (.record fields) where
  writable scope := by
    cases scope with
    | everything => exact .members (List.forall_mem_singleton.2 (.string _))
    | group namespaceId =>
      exact .members (List.forall_mem_cons.2 ⟨.string _,
        List.forall_mem_singleton.2 (Id.faithful.writable namespaceId)⟩)
    | project ids =>
      exact .members (List.forall_mem_cons.2 ⟨.string _,
        List.forall_mem_singleton.2 (Id.faithful.list.writable ids)⟩)
  read_write scope := by
    have htag {name : String} {ms : List (String × Json)} (htype : "type" ∉ ms.map Prod.fst)
        (hsound : (Json.ofMembers ms).isSound = true) (hdepth : (Json.ofMembers ms).depth ≤ 2) :
        ofJson? outer (.ofTagged "type" name ms) = ofTag? name (.ofMembers ms) := by
      rw [ofJson?, Json.tagged?_ofTagged htype hsound (by omega), Option.bind_some]
    cases scope with
    | everything => exact htag (by simp) rfl (by decide)
    | group namespaceId =>
      refine (htag (by simp) ?_ ?_).trans ?_
      · simp [Json.ofMembers, Json.isSound, Json.isSoundMembers, Id.isSound_toJson]
      · simp [Json.ofMembers, Json.depth, Json.depthMembers, Id.depth_toJson]
      · change ((Id.ofJson? namespaceId.toJson).bind fun i ↦ some (group i)) = _
        rw [Id.faithful.read_write]
        rfl
    | project ids =>
      refine (htag (by simp) ?_ ?_).trans ?_
      · simp [Json.ofMembers, Json.isSound, Json.isSoundMembers, Id.isSoundItems_map_toJson]
      · simp [Json.ofMembers, Json.depth, Json.depthMembers, Id.depthItems_map_toJson]
      · change ((Json.list? Id.ofJson? (.array (ids.map Id.toJson))).bind fun is ↦
          some (project is)) = _
        rw [Id.faithful.list.read_write]
        rfl
  agree := by
    intro j k h a b ha hb
    obtain ⟨⟨name, rest⟩, hj, ha⟩ := Option.bind_eq_some_iff.1 ha
    obtain ⟨⟨name', rest'⟩, hk, hb⟩ := Option.bind_eq_some_iff.1 hb
    obtain ⟨rfl, hrest⟩ := Json.tagged?_alike h (by simp) hj hk
    exact agree_ofTag? name hrest a b ha hb

end RunnerScope

namespace Runner

def fields : Fields :=
  [("id", .exact), ("scope", .record RunnerScope.fields), ("tags", .set), ("run_untagged", .exact),
    ("protected_ref_access", .exact), ("active", .exact)]

theorem scope_faithful :
    Faithful RunnerScope.toJson (RunnerScope.ofJson? 1) (.record RunnerScope.fields) :=
  RunnerScope.faithful (by decide)

def parts : List (RecordPart Runner) :=
  [Id.faithful.part "id" (·.id), scope_faithful.part "scope" (·.scope),
    TagSet.faithful.part "tags" (·.tags),
    Json.boolean_faithful.part "run_untagged" (·.runUntagged),
    Json.boolean_faithful.part "protected_ref_access" (·.protectedRefAccess),
    Json.boolean_faithful.part "active" (·.active)]

def layout : Layout ofJson? parts where
  members
  ofValues := _
  read_eq _ := rfl
  names := rfl
  nodup := by decide
  read_back r := by
    simp [parts, Id.faithful.read_write, scope_faithful.read_write, TagSet.faithful.read_write,
      Json.boolean?]
  isRead {_ r} h := by
    split at h
    next =>
      cases r
      simpa [parts, Option.bind_eq_some_iff, -Bool.exists_bool] using h
    next => cases h

theorem faithful : Faithful toJson ofJson? (.record fields) := layout.faithful fun _ ↦ rfl

end Runner

namespace Registration

def fields : Fields :=
  exactly ["id", "tags", "run_untagged", "protected_ref_access", "instance", "group", "projects",
    "active"]

theorem group_faithful : Faithful (Json.ofOption (Id.toJson (r := .nameSpace)))
    (Json.option? Id.ofJson?) .exact := Id.faithful.option fun _ ↦ Json.noConfusion

def parts : List (RecordPart Registration) :=
  [Id.faithful.part "id" (·.id), Json.string_faithful.list.partOr [] "tags" (·.tags),
    Json.boolean_faithful.partOr true "run_untagged" (·.runUntagged),
    Json.boolean_faithful.partOr false "protected_ref_access" (·.protectedRefAccess),
    Json.boolean_faithful.partOr false "instance" (·.everything),
    group_faithful.partOr none "group" (·.group),
    Id.faithful.list.partOr [] "projects" (·.projects),
    Json.boolean_faithful.partOr true "active" (·.active)]

def layout : Layout ofJson? parts where
  members
  ofValues := _
  read_eq _ := rfl
  names := rfl
  nodup := by decide
  read_back reg := by
    simp [parts, Id.faithful.read_write, Json.string_faithful.list.read_write,
      group_faithful.read_write, Id.faithful.list.read_write, Json.boolean?, Json.orDefault]
  isRead {_ reg} h := by
    split at h
    next =>
      cases reg
      simpa [parts, Option.bind_eq_some_iff, -Bool.exists_bool] using h
    next => cases h

theorem faithful : Faithful toJson ofJson? (.record fields) := layout.faithful fun _ ↦ rfl

end Registration

end BuildQueue
