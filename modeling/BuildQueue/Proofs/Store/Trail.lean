import BuildQueue.Proofs.Store.Provenance
import BuildQueue.Proofs.Store.Sound
import Mathlib.Algebra.Order.Ring.Int

/-!
# The trail of a row

Every row goes back to the one operation that put its build into the queue, with the namespace that
the project had then. The runner of a row and the time it started at are those of the last claim of
its build that succeeded; no other operation writes them. An operation that does not go through
leaves no trace at all.
-/

namespace BuildQueue

/-- The operation was refused, lost or broken off. -/
def StoreReply.isDeclined : StoreReply → Bool
  | .lost | .refused _ | .overflowed => true
  | _ => false

/-- The assignment that a claim of the job was given. -/
def StoreEvent.given? (e : StoreEvent) (job : JobId) : Option Assignment :=
  match e.operation, e.reply with
  | .tryClaim id _ _, .assigned a => if id = job then some a else none
  | _, _ => none

/-- The assignments that claims of the job were given, first to last. -/
def givenTo (job : JobId) (log : List StoreEvent) : List Assignment :=
  log.filterMap (·.given? job)

/-- Who runs a build and since when. -/
abbrev Running := Option RunnerId × Option Instant

def BuildRow.running (row : BuildRow) : Running := (row.runnerId, row.startedAt)

def Assignment.running (a : Assignment) : Running := (some a.runnerId, some a.claimedAt)

namespace Store

variable {s t : Store} {op : StoreOperation} {reply : StoreReply} {job : JobId}

/-- Who runs a build and since when; nobody runs an unknown build. -/
def running (s : Store) (job : JobId) : Running :=
  ((s.builds.find? job).map BuildRow.running).getD (none, none)

theorem running_writeRow (id job : JobId) (row : BuildRow) :
    (s.writeRow id row).running job = if job = id then row.running else s.running job := by
  unfold running
  rw [find?_builds_writeRow]
  split <;> rfl

/-- A row that is written back with the same runner changes nobody's runner. -/
theorem running_writeRow_of_eq {id : JobId} {row : BuildRow} (h : row.running = s.running id)
    (job : JobId) : (s.writeRow id row).running job = s.running job := by
  rw [running_writeRow]
  split
  next heq => rw [h, heq]
  next => rfl

namespace Effect

theorem eq_of_isDeclined (h : s.Effect op reply t) (hreply : reply.isDeclined = true) : t = s := by
  cases h with
  | overflowed => rfl
  | unknownProject => rfl
  | unknownBuild => rfl
  | lost => rfl
  | _ => simp [StoreReply.isDeclined] at hreply

/-- Only a claim that succeeds changes who runs a build. -/
theorem running_eq (h : s.Effect op reply t) (hnumbered : s.Numbered) (poll : Option Nat)
    (job : JobId) : t.running job =
      ((StoreEvent.given? ⟨poll, op, reply⟩ job).map Assignment.running).getD (s.running job) := by
  cases h with
  | projectPut project =>
    obtain ⟨pending, hput, -⟩ := s.putProject_frame project
    rw [hput]
    rfl
  | @enqueued build record nextJobId hproject hnext =>
    -- The new build has no runner, and there was no build under its id before.
    have hnew : (build.row s.nextJobId record.namespaceId).running =
        { s with nextJobId }.running s.nextJobId := by
      unfold running
      rw [hnumbered.find?_nextJobId]
      rfl
    exact running_writeRow_of_eq hnew job
  | @statusSet id row status hfound =>
    have hkept : { row with status }.running = s.running id := by
      unfold running
      rw [hfound]
      rfl
    exact running_writeRow_of_eq hkept job
  | @taken id row runner now hfound hpending =>
    rw [running_writeRow]
    change _ = ((if id = job then some (Assignment.mk id runner now) else none).map
      Assignment.running).getD _
    by_cases hjob : job = id
    · rw [if_pos hjob, if_pos hjob.symm]
      rfl
    · rw [if_neg hjob, if_neg (Ne.symm hjob)]
      rfl
  | _ => rfl

/-- A build that is new to the store is as it was just put into the queue. -/
theorem row_of_new (h : s.Effect op reply t) (hold : s.builds.find? job = none) {row : BuildRow}
    (hnew : t.builds.find? job = some row) : ∃ build record,
      op = .enqueue build ∧ reply = .enqueued job ∧
        s.projects.find? build.projectId = some record ∧
        row = build.row job record.namespaceId := by
  -- A row that is new where it was written has to have been written there.
  have hwritten {s : Store} {id : JobId} {written : BuildRow}
      (hold : s.builds.find? job = none)
      (hnew : (s.writeRow id written).builds.find? job = some row) : job = id ∧ row = written := by
    rw [find?_builds_writeRow] at hnew
    split at hnew
    next heq => exact ⟨heq, (Option.some.inj hnew).symm⟩
    next => simp [hold] at hnew
  cases h with
  | projectPut project =>
    obtain ⟨pending, hput, -⟩ := s.putProject_frame project
    rw [hput] at hnew
    exact absurd (hold.symm.trans hnew) (by simp)
  | @enqueued build record nextJobId hproject hnext =>
    obtain ⟨rfl, rfl⟩ := hwritten (s := { s with nextJobId }) hold hnew
    exact ⟨build, record, rfl, rfl, hproject, rfl⟩
  | statusSet status hfound =>
    obtain ⟨rfl, -⟩ := hwritten hold hnew
    exact absurd (hold.symm.trans hfound) (by simp)
  | taken runner now hfound =>
    obtain ⟨rfl, -⟩ := hwritten hold hnew
    exact absurd (hold.symm.trans hfound) (by simp)
  | _ => exact absurd (hold.symm.trans hnew) (by simp)

end Effect

theorem numbered_of_history {log : List StoreEvent} (h : History log s) : s.Numbered := by
  induction h with
  | start => exact numbered_empty
  | step h poll op ih => exact (effect_apply _ op).numbered ih

theorem sound_of_history {log : List StoreEvent} (h : History log s) : s.Sound := by
  induction h with
  | start => exact sound_empty
  | step h poll op ih => exact ih.apply op

namespace History

variable {log : List StoreEvent}

/-- One id was counted for every build that was put into the queue. -/
theorem nextJobId_eq (h : History log s) :
    s.nextJobId.toInt = 1 + (log.filterMap StoreEvent.enqueued?).length := by
  induction h with
  | start => rfl
  | @step log s h poll op ih =>
    rw [List.filterMap_append, List.length_append, List.filterMap_cons, List.filterMap_nil]
    rcases (s.effect_apply op).nextJobId_eq poll with ⟨henqueued, hcounted⟩ | ⟨hnone, hkept⟩
    · change (s.record poll op).enqueued? = some s.nextJobId at henqueued
      rw [henqueued, hcounted, ih]
      simp only [List.length_singleton]
      omega
    · change (s.record poll op).enqueued? = none at hnone
      rw [hnone, hkept, ih]
      simp

/-- Who runs a build is who took it last. -/
theorem running_eq (h : History log s) (job : JobId) :
    s.running job = ((givenTo job log).getLast?.map Assignment.running).getD (none, none) := by
  induction h with
  | start => rfl
  | @step log s h poll op ih =>
    rw [(s.effect_apply op).running_eq (numbered_of_history h) poll, ih]
    change ((s.record poll op).given? job |>.map Assignment.running).getD _ = _
    unfold givenTo
    rw [List.filterMap_append]
    cases hgiven : (s.record poll op).given? job <;> simp [hgiven]

/-- The operation that put a build into the queue, and all that the row keeps of it. -/
theorem exists_enqueue (h : History log s) {row : BuildRow}
    (hfound : s.builds.find? job = some row) : ∃ before poll build later s' project,
      log = before ++ ⟨poll, .enqueue build, .enqueued job⟩ :: later ∧ History before s' ∧
        s'.projects.find? build.projectId = some project ∧
        row.atEnqueue = build.row job project.namespaceId := by
  induction h generalizing row with
  | start => simp [empty] at hfound
  | @step log s h poll op ih =>
    cases hold : s.builds.find? job with
    | none =>
      obtain ⟨build, project, rfl, hreply, hproject, rfl⟩ :=
        (s.effect_apply op).row_of_new hold hfound
      refine ⟨log, poll, build, [], s, project, ?_, h, hproject, rfl⟩
      unfold record
      rw [hreply]
    | some old =>
      obtain ⟨before, poll', build, later, s', project, hlog, hbefore, hproject, hrow⟩ := ih hold
      obtain ⟨kept, hkept, hsame⟩ :=
        (s.effect_apply op).keeps (numbered_of_history h) job old hold
      obtain rfl : kept = row := Option.some.inj (hkept.symm.trans hfound)
      refine ⟨before, poll', build, later ++ [s.record poll op], s', project, ?_, hbefore,
        hproject, hsame.trans hrow⟩
      rw [hlog, List.append_assoc]
      rfl

/-- An id is handed out once. -/
theorem enqueued?_ne_of_split {before later : List StoreEvent} {e : StoreEvent}
    (h : History (before ++ e :: later) s) (he : e.enqueued? = some job) :
    ∀ e' ∈ before ++ later, e'.enqueued? ≠ some job := by
  intro e' hmem he'
  have hnodup := h.nodup_enqueued
  rw [List.filterMap_append, List.filterMap_cons, he] at hnodup
  have hmiddle := (List.nodup_middle.1 hnodup)
  rw [← List.filterMap_append] at hmiddle
  exact (List.nodup_cons.1 hmiddle).1 (List.mem_filterMap.2 ⟨e', hmem, he'⟩)

end History

/-- An enqueue leaves every row that was there. -/
theorem find?_builds_enqueue (h : s.Numbered) (build : NewBuild) {row : BuildRow}
    (hfound : s.builds.find? job = some row) :
    (s.apply (.enqueue build)).2.builds.find? job = some row := by
  have heffect := s.effect_apply (.enqueue build)
  generalize s.apply (.enqueue build) = result at heffect
  obtain ⟨reply, t⟩ := result
  cases heffect with
  | @enqueued build record nextJobId hproject hnext =>
    have hne : job ≠ s.nextJobId := by
      rintro rfl
      rw [h.find?_nextJobId] at hfound
      simp at hfound
    change (Store.writeRow _ _ _).builds.find? job = _
    rw [find?_builds_writeRow, if_neg hne]
    exact hfound
  | overflowed => exact hfound
  | unknownProject => exact hfound

/-- As long as there is an id to count on to, a build of a known project gets the next id. -/
theorem enqueue_of_lt (s : Store) {build : NewBuild} {project : ProjectRecord}
    (hproject : s.projects.find? build.projectId = some project)
    (hlow : 0 ≤ s.nextJobId.toInt) (hlt : s.nextJobId.toInt < 2 ^ 63 - 1) :
    (s.apply (.enqueue build)).1 = .enqueued s.nextJobId ∧
      (s.apply (.enqueue build)).2.builds.find? s.nextJobId =
        some (build.row s.nextJobId project.namespaceId) := by
  obtain ⟨nextJobId, hnext⟩ : ∃ nextJobId, s.nextJobId.next? = some nextJobId := by
    have hcontains : IntegerRange.signed64.contains (s.nextJobId.toInt + 1) = true := by
      rw [IntegerRange.contains_iff]
      change -9223372036854775808 ≤ _ ∧ _ ≤ 9223372036854775807
      omega
    exact ⟨_, if_pos hcontains⟩
  rw [apply_enqueue hproject hnext]
  exact ⟨rfl, (find?_builds_writeRow ..).trans (if_pos rfl)⟩

/-- Whatever was done to a store, the ids of its builds are those from one up to the next id. A row
stands under its id and keeps what the one operation that handed out this id put into the queue,
with the namespace of the project at that time; its runner and its start are those of the last claim
of the build that succeeded, or missing if none did. Putting a build into the queue leaves all other
rows and, as long as ids last, adds its row under the next id. A build of an unknown project, the
status of an unknown build, a claim that is lost and whatever else does not go through leave the
whole store as it was. -/
theorem rows_traced {log : List StoreEvent} {s : Store} (h : History log s) :
    (∀ job, (s.builds.find? job).isSome = true ↔
      1 ≤ job.toInt ∧ job.toInt < s.nextJobId.toInt) ∧
    (∀ job row, s.builds.find? job = some row → row.id = job ∧
      (∃ before poll build later s' project,
        log = before ++ ⟨poll, .enqueue build, .enqueued job⟩ :: later ∧
        (∀ e ∈ before ++ later, e.enqueued? ≠ some job) ∧ History before s' ∧
        s'.projects.find? build.projectId = some project ∧
        row.projectId = build.projectId ∧ row.namespaceId = project.namespaceId ∧
        row.tags = build.tags ∧ row.refProtected = build.refProtected ∧
        row.queuedAt = some build.queuedAt) ∧
      (givenTo job log = [] → row.runnerId = none ∧ row.startedAt = none) ∧
      ∀ a, (givenTo job log).getLast? = some a →
        row.runnerId = some a.runnerId ∧ row.startedAt = some a.claimedAt) ∧
    (∀ build job row, s.builds.find? job = some row →
      (s.apply (.enqueue build)).2.builds.find? job = some row) ∧
    (∀ build project, s.projects.find? build.projectId = some project →
      (log.filterMap StoreEvent.enqueued?).length + 1 < 2 ^ 63 - 1 →
        (s.apply (.enqueue build)).1 = .enqueued s.nextJobId ∧
        (s.apply (.enqueue build)).2.builds.find? s.nextJobId =
          some (build.row s.nextJobId project.namespaceId)) ∧
    (∀ build, s.projects.find? build.projectId = none →
      s.apply (.enqueue build) = (.refused (.unknownProject build.projectId), s)) ∧
    (∀ job status, s.builds.find? job = none →
      s.apply (.setStatus job status) = (.refused (.unknownBuild job), s)) ∧
    (∀ job runner now, (s.tryClaim job runner now).1 = none →
      (s.tryClaim job runner now).2 = s) ∧
    ∀ op, (s.apply op).1.isDeclined = true → (s.apply op).2 = s := by
  have hnumbered : s.Numbered := numbered_of_history h
  refine ⟨hnumbered.isSome_iff, fun job row hfound ↦ ⟨?_, ?_, ?_⟩,
    fun build job row ↦ find?_builds_enqueue hnumbered build, ?_,
    fun build ↦ apply_enqueue_unknown, fun job status ↦ apply_setStatus_unknown status, ?_,
    fun op ↦ (s.effect_apply op).eq_of_isDeclined⟩
  · exact (sound_of_history h).build_id job row hfound
  · obtain ⟨before, poll, build, later, s', project, rfl, hbefore, hproject, hrow⟩ :=
      h.exists_enqueue hfound
    refine ⟨before, poll, build, later, s', project, rfl, h.enqueued?_ne_of_split rfl, hbefore,
      hproject, ?_⟩
    exact ⟨congrArg BuildRow.projectId hrow, congrArg BuildRow.namespaceId hrow,
      congrArg BuildRow.tags hrow, congrArg BuildRow.refProtected hrow,
      congrArg BuildRow.queuedAt hrow⟩
  · have hrunning : row.running = s.running job := by
      unfold running
      rw [hfound]
      rfl
    rw [h.running_eq] at hrunning
    constructor
    · intro hnone
      rw [hnone] at hrunning
      exact Prod.mk.inj hrunning
    · intro a hlast
      rw [hlast] at hrunning
      exact Prod.mk.inj hrunning
  · intro build project hproject hlt
    have hnext := h.nextJobId_eq
    exact s.enqueue_of_lt hproject (by omega) (by omega)
  · intro job runner now hlost
    rcases s.tryClaim_cases job runner now with ⟨row, -, -, hclaim⟩ | ⟨-, hclaim⟩
    · rw [hclaim] at hlost
      simp at hlost
    · rw [hclaim]

/-- The events of some operations, one after the other. -/
def recordAll (s : Store) : List StoreOperation → List StoreEvent
  | [] => []
  | op :: ops => s.record none op :: (s.apply op).2.recordAll ops

theorem History.recordAll {log : List StoreEvent} {s : Store} (h : History log s)
    (ops : List StoreOperation) :
    History (log ++ s.recordAll ops) (ops.foldl (fun s op ↦ (s.apply op).2) s) := by
  induction ops generalizing log s with
  | nil =>
    rw [Store.recordAll, List.append_nil]
    exact h
  | cons op ops ih =>
    rw [Store.recordAll, List.append_cons]
    exact ih (h.step none op)

/-- A build whose project moves to another namespace, and which is taken, put back, taken again and
brought to its end; and an operation that is refused. -/
def wellTravelled : List StoreOperation :=
  [.putProject (.opened ⟨1⟩ ⟨1⟩), .enqueue ⟨⟨1⟩, .ofList ["docker"], true, .earliest⟩,
    .putProject (.opened ⟨1⟩ ⟨2⟩), .tryClaim ⟨1⟩ ⟨7⟩ .earliest, .setStatus ⟨1⟩ .pending,
    .tryClaim ⟨1⟩ ⟨8⟩ .latest, .setStatus ⟨1⟩ .success, .setStatus ⟨2⟩ .pending]

theorem rows_traced_wellTravelled :
    let log := empty.recordAll wellTravelled
    let s := after wellTravelled
    History log s ∧
    (∃ row, s.builds.find? ⟨1⟩ = some row ∧ row.id = ⟨1⟩ ∧
      (givenTo ⟨1⟩ log).getLast? = some ⟨⟨1⟩, ⟨8⟩, .latest⟩ ∧
      row.runnerId = some ⟨8⟩ ∧ row.startedAt = some .latest ∧
      ∃ before poll build later, ∃ (s' : Store) (project : ProjectRecord),
        log = before ++ ⟨poll, .enqueue build, .enqueued ⟨1⟩⟩ :: later ∧ History before s' ∧
        s'.projects.find? build.projectId = some project ∧
        row.namespaceId = project.namespaceId ∧ row.tags = build.tags) ∧
    ((log.filterMap StoreEvent.enqueued?).length + 1 < 2 ^ 63 - 1 ∧
      (s.apply (.enqueue ⟨⟨1⟩, .empty, false, .earliest⟩)).1 = .enqueued s.nextJobId) ∧
    s.apply (.setStatus ⟨2⟩ .pending) = (.refused (.unknownBuild ⟨2⟩), s) ∧
    ((s.tryClaim ⟨1⟩ ⟨9⟩ .latest).1 = none ∧ (s.tryClaim ⟨1⟩ ⟨9⟩ .latest).2 = s) := by
  intro log s
  have h : History log s := History.start.recordAll wellTravelled
  obtain ⟨-, hrows, -, henqueue, -, hunknown, hlost, -⟩ := rows_traced h
  have hsome : (s.builds.find? ⟨1⟩).isSome = true := by decide +kernel
  obtain ⟨row, hfound⟩ := Option.isSome_iff_exists.1 hsome
  obtain ⟨hid, hsource, -, htaken⟩ := hrows ⟨1⟩ row hfound
  have hlast : (givenTo ⟨1⟩ log).getLast? = some ⟨⟨1⟩, ⟨8⟩, .latest⟩ := by decide +kernel
  obtain ⟨before, poll, build, later, s', project, hlog, -, hbefore, hproject, -, hnamespace, htags,
    -⟩ := hsource
  have hcount : (log.filterMap StoreEvent.enqueued?).length + 1 < 2 ^ 63 - 1 := by decide +kernel
  have hknown : s.projects.find? ⟨1⟩ = some (.opened ⟨1⟩ ⟨2⟩) := by decide +kernel
  have hnone : (s.tryClaim ⟨1⟩ ⟨9⟩ .latest).1 = none := by decide +kernel
  exact ⟨h, ⟨row, hfound, hid, hlast, (htaken _ hlast).1, (htaken _ hlast).2, before, poll, build,
      later, s', project, hlog, hbefore, hproject, hnamespace, htags⟩,
    ⟨hcount, (henqueue ⟨⟨1⟩, .empty, false, .earliest⟩ _ hknown hcount).1⟩,
    hunknown ⟨2⟩ .pending (by decide +kernel), hnone, hlost _ _ _ hnone⟩

end Store

end BuildQueue
