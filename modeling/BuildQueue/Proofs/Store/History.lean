import BuildQueue.Proofs.Store.Effect

/-!
# Histories of a store

A history is what was asked of a store and what the store replied. The status of a build is the one
that was written last, a claim succeeds only while that status is pending, and no id is handed out
twice. So between two claims of a job that both succeed the job was moved back to pending.
-/

namespace BuildQueue

/-- An operation with its reply, and the poll that made it if one did. -/
structure StoreEvent where
  poll : Option Nat
  operation : StoreOperation
  reply : StoreReply
  deriving DecidableEq

namespace StoreEvent

/-- What a successful claim was made with. -/
def taken? (e : StoreEvent) : Option Assignment :=
  match e.operation, e.reply with
  | .tryClaim job runner now, .assigned _ => some ⟨job, runner, now⟩
  | _, _ => none

/-- A successful claim of the job. -/
def takes (e : StoreEvent) (job : JobId) : Bool := e.taken?.any (·.jobId = job)

/-- A successful move of the job back to pending. -/
def requeues (e : StoreEvent) (job : JobId) : Bool :=
  e.operation = .setStatus job .pending && e.reply = .done

/-- The id that was handed out. -/
def enqueued? (e : StoreEvent) : Option JobId :=
  match e.reply with
  | .enqueued job => some job
  | _ => none

/-- The status that the event gave the job. -/
def written? (e : StoreEvent) (job : JobId) : Option BuildStatus :=
  match e.operation, e.reply with
  | .enqueue _, .enqueued id => if id = job then some .pending else none
  | .setStatus id status, .done => if id = job then some status else none
  | .tryClaim id _ _, .assigned _ => if id = job then some .running else none
  | _, _ => none

variable {e : StoreEvent} {job : JobId}

theorem written?_of_takes (h : e.takes job = true) : e.written? job = some .running := by
  unfold takes taken? at h
  unfold written?
  cases hop : e.operation <;> cases hreply : e.reply <;> simp [hop, hreply] at h ⊢
  exact h

/-- Only two kinds of event make a job pending. -/
theorem written?_eq_pending (h : e.written? job = some .pending) :
    e.requeues job = true ∨ e.enqueued? = some job := by
  unfold written? at h
  unfold requeues enqueued?
  split at h
  next id hop hreply =>
    right
    rw [hreply]
    simpa using h
  next id status hop hreply =>
    left
    split at h
    next heq =>
      rw [Option.some.injEq] at h
      simp [hop, hreply, heq, h]
    next => simp at h
  next id hop hreply => simp at h
  next => simp at h

end StoreEvent

/-- The status that events gave the job last, if they gave it one. -/
def lastWritten (job : JobId) (log : List StoreEvent) : Option BuildStatus :=
  log.foldl (fun status e ↦ (e.written? job).or status) none

theorem lastWritten_append_singleton (job : JobId) (log : List StoreEvent) (e : StoreEvent) :
    lastWritten job (log ++ [e]) = (e.written? job).or (lastWritten job log) := by
  simp [lastWritten]

/-- A status that was not written before an event and was not written by it was written since. -/
theorem exists_written_of_lastWritten {job : JobId} {status : BuildStatus}
    {before since : List StoreEvent} {e : StoreEvent} {other : BuildStatus} (hne : other ≠ status)
    (he : e.written? job = some other)
    (h : lastWritten job (before ++ e :: since) = some status) :
    ∃ e' ∈ since, e'.written? job = some status := by
  induction since using List.reverseRecOn with
  | nil =>
    rw [lastWritten_append_singleton, he, Option.some_or, Option.some.injEq] at h
    exact absurd h hne
  | append_singleton since e' ih =>
    rw [← List.cons_append, ← List.append_assoc, lastWritten_append_singleton] at h
    cases hwritten : e'.written? job with
    | none =>
      rw [hwritten, Option.none_or] at h
      obtain ⟨found, hmem, hfound⟩ := ih h
      exact ⟨found, List.mem_append_left _ hmem, hfound⟩
    | some last =>
      rw [hwritten, Option.some_or] at h
      exact ⟨e', by simp, hwritten.trans h⟩

/-- What is found more than once in a list is found at two places. -/
theorem exists_two_of_countP {α : Type} {p : α → Bool} {xs : List α} (h : 1 < xs.countP p) :
    ∃ before first between second after,
      xs = before ++ first :: (between ++ second :: after) ∧ p first = true ∧ p second = true := by
  induction xs with
  | nil => simp at h
  | cons x xs ih =>
    by_cases hx : p x = true
    · rw [List.countP_cons_of_pos hx] at h
      obtain ⟨y, hmem, hy⟩ := List.countP_pos_iff.1 (by omega : 0 < xs.countP p)
      obtain ⟨between, after, hxs⟩ := List.append_of_mem hmem
      exact ⟨[], x, between, y, after, by rw [hxs]; rfl, hx, hy⟩
    · rw [List.countP_cons_of_neg hx] at h
      obtain ⟨before, first, between, second, after, hxs, hfirst, hsecond⟩ := ih h
      exact ⟨x :: before, first, between, second, after, by rw [hxs]; rfl, hfirst, hsecond⟩

theorem Id.toInt_of_next? {r : Resource} {i j : Id r} (h : i.next? = some j) :
    j.toInt = i.toInt + 1 :=
  ofInt?_eq_some_iff.1 h

namespace Store

/-! ## Steps -/

/-- The status of a known build. -/
def status? (s : Store) (job : JobId) : Option BuildStatus :=
  (s.builds.find? job).map BuildRow.status

/-- The event that an operation is. -/
def record (s : Store) (poll : Option Nat) (op : StoreOperation) : StoreEvent :=
  ⟨poll, op, (s.apply op).1⟩

variable {s : Store}

theorem status?_writeRow (job other : JobId) (row : BuildRow) :
    (s.writeRow job row).status? other =
      if other = job then some row.status else s.status? other := by
  unfold status?
  rw [find?_builds_writeRow]
  split <;> rfl

theorem nextJobId_writeRow (job : JobId) (row : BuildRow) :
    (s.writeRow job row).nextJobId = s.nextJobId := by
  obtain ⟨pending, h⟩ := s.writeRow_frame job row
  rw [h]

namespace Effect

variable {op : StoreOperation} {reply : StoreReply} {t : Store} {poll : Option Nat} {job : JobId}

/-- The status of a build changes to what the event wrote, and only so. -/
theorem status?_eq (h : s.Effect op reply t) (poll : Option Nat) (job : JobId) :
    t.status? job = (StoreEvent.written? ⟨poll, op, reply⟩ job).or (s.status? job) := by
  -- A row that was written is looked up where it was written, or elsewhere.
  have hwrite (id : JobId) (row : BuildRow) (s : Store) : (s.writeRow id row).status? job =
      (if id = job then some row.status else none).or (s.status? job) := by
    rw [status?_writeRow]
    by_cases hid : job = id
    · rw [if_pos hid, if_pos hid.symm, Option.some_or]
    · rw [if_neg hid, if_neg (Ne.symm hid), Option.none_or]
  cases h with
  | projectPut project =>
    obtain ⟨pending, hput, -⟩ := s.putProject_frame project
    rw [hput]
    rfl
  | enqueued => exact hwrite _ _ _
  | statusSet => exact hwrite _ _ _
  | taken => exact hwrite _ _ _
  | _ => rfl

/-- Only a pending build is taken. -/
theorem status?_of_takes (h : s.Effect op reply t)
    (htakes : StoreEvent.takes ⟨poll, op, reply⟩ job = true) : s.status? job = some .pending := by
  unfold StoreEvent.takes StoreEvent.taken? at htakes
  cases h with
  | @taken id row runner now hfound hpending =>
    have hid : id = job := by simpa using htakes
    rw [← hid, status?, hfound, Option.map_some, hpending]
  | _ => simp at htakes

/-- The id that is handed out is the next one, and the one after it is larger. -/
theorem nextJobId_eq (h : s.Effect op reply t) (poll : Option Nat) :
    (StoreEvent.enqueued? ⟨poll, op, reply⟩ = some s.nextJobId ∧
      t.nextJobId.toInt = s.nextJobId.toInt + 1) ∨
    (StoreEvent.enqueued? ⟨poll, op, reply⟩ = none ∧ t.nextJobId = s.nextJobId) := by
  cases h with
  | projectPut project =>
    obtain ⟨pending, hput, -⟩ := s.putProject_frame project
    rw [hput]
    exact .inr ⟨rfl, rfl⟩
  | enqueued hproject hnext =>
    refine .inl ⟨rfl, ?_⟩
    rw [nextJobId_writeRow]
    exact Id.toInt_of_next? hnext
  | statusSet => exact .inr ⟨rfl, nextJobId_writeRow _ _⟩
  | taken => exact .inr ⟨rfl, nextJobId_writeRow _ _⟩
  | _ => exact .inr ⟨rfl, rfl⟩

/-- A build that is new to the store was handed its id by this very operation. -/
theorem enqueued?_of_new (h : s.Effect op reply t) (hold : s.status? job = none)
    (hnew : t.status? job ≠ none) : StoreEvent.enqueued? ⟨poll, op, reply⟩ = some job := by
  rw [h.status?_eq poll, hold, Option.or_none] at hnew
  have hknown {id : JobId} {row : BuildRow} (hfound : s.builds.find? id = some row) : id ≠ job := by
    intro hid
    rw [status?, ← hid, hfound] at hold
    simp at hold
  unfold StoreEvent.written? at hnew
  cases h with
  | enqueued => simpa [StoreEvent.enqueued?] using hnew
  | statusSet status hfound => exact absurd (if_neg (hknown hfound)) hnew
  | taken runner now hfound => exact absurd (if_neg (hknown hfound)) hnew
  | _ => exact absurd rfl hnew

end Effect

/-! ## Histories -/

/-- What was asked of a store that was empty at first, and the store it left. -/
inductive History : List StoreEvent → Store → Prop
  | start : History [] empty
  | step {log : List StoreEvent} {s : Store} (h : History log s) (poll : Option Nat)
      (op : StoreOperation) : History (log ++ [s.record poll op]) (s.apply op).2

namespace History

variable {log before after : List StoreEvent} {e : StoreEvent} {job : JobId}

/-- The store as it was before an event of its history. -/
theorem split (h : History (before ++ e :: after) s) :
    ∃ s', History before s' ∧ e = s'.record e.poll e.operation := by
  induction after using List.reverseRecOn generalizing s with
  | nil =>
    generalize hlog : before ++ [e] = log at h
    cases h with
    | start => simp at hlog
    | step h poll op =>
      obtain ⟨rfl, heq⟩ := List.append_inj' hlog rfl
      rw [List.singleton_inj] at heq
      refine ⟨_, h, ?_⟩
      rw [heq]
      rfl
  | append_singleton after last ih =>
    generalize hlog : before ++ e :: (after ++ [last]) = log at h
    rw [← List.cons_append, ← List.append_assoc] at hlog
    cases h with
    | start => simp at hlog
    | step h poll op =>
      obtain ⟨rfl, -⟩ := List.append_inj' hlog rfl
      exact ih h

theorem status?_eq (h : History log s) (job : JobId) : s.status? job = lastWritten job log := by
  induction h with
  | start => rfl
  | step h poll op ih =>
    rw [(effect_apply _ op).status?_eq poll, ih, lastWritten_append_singleton]
    rfl

/-- Ids are handed out in ascending order. -/
theorem enqueued_lt (h : History log s) :
    (log.filterMap StoreEvent.enqueued?).Pairwise (fun i j ↦ i.toInt < j.toInt) ∧
      ∀ id ∈ log.filterMap StoreEvent.enqueued?, id.toInt < s.nextJobId.toInt := by
  induction h with
  | start => exact ⟨.nil, by simp⟩
  | @step log s h poll op ih =>
    obtain ⟨hascending, hbelow⟩ := ih
    rw [List.filterMap_append]
    rcases (s.effect_apply op).nextJobId_eq poll with ⟨henqueued, hcounted⟩ | ⟨hnone, hkept⟩
    · change (s.record poll op).enqueued? = some s.nextJobId at henqueued
      have hlast : [s.record poll op].filterMap StoreEvent.enqueued? = [s.nextJobId] := by
        simp [henqueued]
      rw [hlast]
      constructor
      · rw [List.pairwise_append]
        refine ⟨hascending, List.pairwise_singleton _ _, ?_⟩
        intro id hid last hmem
        rw [List.mem_singleton.1 hmem]
        exact hbelow id hid
      · intro id hid
        rw [hcounted]
        rcases List.mem_append.1 hid with hid | hid
        · have hlt : id.toInt < s.nextJobId.toInt := hbelow id hid
          omega
        · rw [List.mem_singleton.1 hid]
          omega
    · change (s.record poll op).enqueued? = none at hnone
      have hlast : [s.record poll op].filterMap StoreEvent.enqueued? = [] := by
        simp [hnone]
      rw [hlast, List.append_nil, hkept]
      exact ⟨hascending, hbelow⟩

theorem nodup_enqueued (h : History log s) : (log.filterMap StoreEvent.enqueued?).Nodup :=
  h.enqueued_lt.1.imp fun hlt heq ↦ by
    rw [heq] at hlt
    exact absurd hlt (Int.lt_irrefl _)

/-- Every known build was enqueued. -/
theorem mem_enqueued (h : History log s) (hjob : s.status? job ≠ none) :
    job ∈ log.filterMap StoreEvent.enqueued? := by
  induction h with
  | start => exact absurd rfl hjob
  | @step log s h poll op ih =>
    rw [List.filterMap_append, List.mem_append]
    cases hold : s.status? job with
    | none =>
      right
      have hid : (s.record poll op).enqueued? = some job :=
        (s.effect_apply op).enqueued?_of_new hold hjob
      simp [hid]
    | some status =>
      left
      apply ih
      simp [hold]

/-- Between two claims of a job that both succeed the job was moved back to pending. -/
theorem requeued {between : List StoreEvent} {first second : StoreEvent}
    (h : History (before ++ first :: (between ++ second :: after)) s)
    (hfirst : first.takes job = true) (hsecond : second.takes job = true) :
    ∃ e ∈ between, e.requeues job = true := by
  rw [← List.cons_append, ← List.append_assoc] at h
  obtain ⟨s₂, h₂, hsecond_eq⟩ := h.split
  obtain ⟨s₁, h₁, hfirst_eq⟩ := h₂.split
  rw [hsecond_eq] at hsecond
  have hwritten : first.written? job = some .running := StoreEvent.written?_of_takes hfirst
  rw [hfirst_eq] at hfirst
  have hlast : lastWritten job (before ++ first :: between) = some .pending := by
    rw [← h₂.status?_eq, (effect_apply _ _).status?_of_takes hsecond]
  obtain ⟨e, hmem, he⟩ := exists_written_of_lastWritten (by decide) hwritten hlast
  rcases StoreEvent.written?_eq_pending he with hrequeues | henqueued
  · exact ⟨e, hmem, hrequeues⟩
  · exfalso
    -- The job was enqueued before the first claim, so it cannot have been enqueued after it.
    have hbefore : job ∈ before.filterMap StoreEvent.enqueued? :=
      h₁.mem_enqueued (by simp [(effect_apply _ _).status?_of_takes hfirst])
    have hsince : job ∈ (first :: between).filterMap StoreEvent.enqueued? :=
      List.mem_filterMap.2 ⟨e, List.mem_cons_of_mem _ hmem, henqueued⟩
    have hnodup := h₂.nodup_enqueued
    rw [List.filterMap_append, List.nodup_append] at hnodup
    exact hnodup.2.2 job hbefore job hsince rfl

/-- A job that is never moved back to pending is taken once. -/
theorem countP_takes_le_one (h : History log s) (hnot : ∀ e ∈ log, e.requeues job = false) :
    log.countP (·.takes job) ≤ 1 := by
  by_contra hlt
  obtain ⟨before, first, between, second, after, rfl, hfirst, hsecond⟩ :=
    exists_two_of_countP (Nat.lt_of_not_le hlt)
  obtain ⟨e, hmem, he⟩ := h.requeued hfirst hsecond
  have hfalse : e.requeues job = false := hnot e (by simp [hmem])
  rw [hfalse] at he
  exact absurd he (by decide)

end History

end Store

end BuildQueue
