import BuildQueue.Proofs.Engine.Oldest
import BuildQueue.Proofs.Engine.Switching

/-!
# A lone poller drains its queue

While nobody else writes, each poll of an active runner takes the first build of those the runner
may take and leaves the rest of them in their order. So some polls in a row hand out these builds
one after the other, oldest first, and then nothing. The depth of the queue goes down by one with
each build and bounds the number of builds that are handed out.
-/

namespace BuildQueue

/-- Of builds with different ids, those with another id than the first are all but the first. -/
theorem QueuedBuild.filter_ne_first {build : QueuedBuild} {rest : List QueuedBuild}
    (h : ((build :: rest).map (·.jobId)).Nodup) :
    (build :: rest).filter (·.jobId ≠ build.jobId) = rest := by
  rw [List.map_cons, List.nodup_cons] at h
  rw [List.filter_cons_of_neg (by simp), List.filter_eq_self]
  intro other hother
  have hne : other.jobId ≠ build.jobId := fun heq ↦ h.1 (heq ▸ List.mem_map_of_mem hother)
  simpa using hne

namespace Store

/-- The row is that of a pending build in scope, queued by the cutoff; whether its tags fit and its
ref may be seen is left open. -/
structure Waits (s : Store) (scope : RunnerScope) (cutoff : Instant) (row : BuildRow)
    (queuedAt : Instant) : Prop where
  stored : s.builds.find? row.id = some row
  pending : row.status = .pending
  queued : row.queuedAt = some queuedAt
  queued_by : queuedAt ≤ cutoff
  in_scope : s.InScope scope row.projectId

/-- The builds that the depth of the queue counts. -/
def waiting (s : Store) (runner : Runner) (cutoff : Instant) : List QueuedBuild :=
  s.scanBuilds (s.scopeOf runner.scope) cutoff

variable {s : Store} {runner : Runner} {cutoff : Instant}

theorem Sound.mem_waiting (h : s.Sound) {build : QueuedBuild} :
    build ∈ s.waiting runner cutoff ↔
      ∃ row, s.Waits runner.scope cutoff row build.queuedAt ∧ row.queued? = some build := by
  unfold waiting
  rw [h.mem_scanBuilds, Offers, h.admits_scopeOf]
  constructor
  · rintro ⟨hbuild, hcutoff, hscope⟩
    obtain ⟨row, hfound, hqueued⟩ := Option.bind_eq_some_iff.1 hbuild
    obtain ⟨hpending, hqueuedAt, hid, hproject, -⟩ := queued?_eq_some_iff.1 hqueued
    rw [← hid] at hfound
    rw [← hproject] at hscope
    exact ⟨row, ⟨hfound, hpending, hqueuedAt, hcutoff, hscope⟩, hqueued⟩
  · rintro ⟨row, hrow, hqueued⟩
    obtain ⟨-, -, hid, hproject, -⟩ := queued?_eq_some_iff.1 hqueued
    rw [← hid, ← hproject, hrow.stored]
    exact ⟨hqueued, hrow.queued_by, hrow.in_scope⟩

theorem length_eligible_le : (s.eligible runner cutoff).length ≤ (s.waiting runner cutoff).length :=
  List.length_filter_le _ _

/-- All waiting builds are eligible just if the runner may take every row that waits. -/
theorem Sound.length_eligible_eq_iff (h : s.Sound) :
    (s.eligible runner cutoff).length = (s.waiting runner cutoff).length ↔
      ∀ row queuedAt, s.Waits runner.scope cutoff row queuedAt →
        s.MayTake runner cutoff row queuedAt := by
  have hall : (s.eligible runner cutoff).length = (s.waiting runner cutoff).length ↔
      ∀ build ∈ s.waiting runner cutoff, build ∈ s.eligible runner cutoff := by
    unfold eligible Eligibility.apply waiting
    rw [List.length_filter_eq_length_iff]
    simp +contextual [List.mem_filter]
  rw [hall]
  constructor
  · intro hmem row queuedAt hrow
    have hqueued : row.queued? = some
        ⟨row.id, row.projectId, row.namespaceId, row.tags, row.refProtected, queuedAt⟩ := by
      rw [queued?_eq_some_iff]
      exact ⟨hrow.pending, hrow.queued, rfl, rfl, rfl, rfl, rfl⟩
    obtain ⟨other, hother, hsame⟩ := h.mem_eligible.1 (hmem _ (h.mem_waiting.2 ⟨row, hrow, hqueued⟩))
    have hid : other.id = row.id := (queued?_eq_some_iff.1 hsame).2.2.1
    have hrows : some other = some row := by rw [← hother.stored, ← hrow.stored, hid]
    rw [← Option.some.inj hrows]
    exact hother
  · intro hmay build hbuild
    obtain ⟨row, hrow, hqueued⟩ := h.mem_waiting.1 hbuild
    exact h.mem_eligible.2 ⟨row, hmay row _ hrow, hqueued⟩

/-! ## What is left when a build is taken -/

theorem scopeOf_writeRow (s : Store) (job : JobId) (row : BuildRow) (scope : RunnerScope) :
    (s.writeRow job row).scopeOf scope = s.scopeOf scope := by
  obtain ⟨pending, h⟩ := s.writeRow_frame job row
  rw [h]
  cases scope <;> rfl

/-- A build that is taken leaves the queue, and no other does. -/
theorem Sound.scanBuilds_taken (h : s.Sound) {job : JobId} {row : BuildRow}
    (hfound : s.builds.find? job = some row) (claimant : RunnerId) (now : Instant)
    (scope : ProjectScope) (cutoff : Instant) :
    (s.writeRow job (row.taken claimant now)).scanBuilds scope cutoff =
      (s.scanBuilds scope cutoff).filter (·.jobId ≠ job) := by
  have htaken : (s.writeRow job (row.taken claimant now)).Sound := h.replaceRow hfound rfl rfl rfl
  apply QueuedBuild.eq_of_mem_iff (htaken.scanBuilds_pairwise scope cutoff)
    ((h.scanBuilds_pairwise scope cutoff).filter _)
  intro build
  have hopen : (s.writeRow job (row.taken claimant now)).openToInstance = s.openToInstance := by
    funext project
    unfold openToInstance Store.writeRow
    rw [projects_sync]
  rw [htaken.mem_scanBuilds, List.mem_filter, h.mem_scanBuilds]
  unfold Offers
  rw [hopen, find?_builds_writeRow]
  by_cases hjob : build.jobId = job
  · have hgone : (row.taken claimant now).queued? = none :=
      queued?_of_not_pending (by simp [BuildRow.taken])
    rw [if_pos hjob, Option.bind_some, hgone]
    simp [hjob]
  · rw [if_neg hjob]
    simp [hjob]

/-- Taking the first eligible build leaves the others, and one build less is waiting. -/
theorem Sound.eligible_tryClaim (h : s.Sound) {build : QueuedBuild} {rest : List QueuedBuild}
    (heligible : s.eligible runner cutoff = build :: rest) (claimant : RunnerId) (now : Instant) :
    (s.tryClaim build.jobId claimant now).2.eligible runner cutoff = rest ∧
      ((s.tryClaim build.jobId claimant now).2.waiting runner cutoff).length + 1 =
        (s.waiting runner cutoff).length ∧
      (s.tryClaim build.jobId claimant now).2.projectionAvailable = s.projectionAvailable := by
  have hmem : build ∈ s.waiting runner cutoff := by
    have hfirst : build ∈ s.eligible runner cutoff := by
      rw [heligible]
      exact List.mem_cons_self
    exact (List.mem_filter.1 hfirst).1
  have hnodup : ((s.waiting runner cutoff).map (·.jobId)).Nodup :=
    h.nodup_jobIds_scanBuilds _ _
  obtain ⟨row, hfound, hstatus⟩ := Option.map_eq_some_iff.1 (h.status?_of_mem_scanBuilds hmem)
  have hclaim := tryClaim_pending claimant now hfound hstatus
  rw [hclaim]
  have hwaiting : (s.writeRow build.jobId (row.taken claimant now)).waiting runner cutoff =
      (s.waiting runner cutoff).filter (·.jobId ≠ build.jobId) := by
    unfold waiting
    rw [scopeOf_writeRow, h.scanBuilds_taken hfound]
  refine ⟨?_, ?_, ?_⟩
  · have hids : ((build :: rest).map (·.jobId)).Nodup := by
      rw [← heligible]
      exact hnodup.sublist (List.filter_sublist.map _)
    calc (s.writeRow build.jobId (row.taken claimant now)).eligible runner cutoff
      _ = Eligibility.apply ⟨runner, cutoff⟩
          ((s.waiting runner cutoff).filter (·.jobId ≠ build.jobId)) := congrArg _ hwaiting
      _ = (s.eligible runner cutoff).filter (·.jobId ≠ build.jobId) := List.filter_comm _ _ _
      _ = rest := by rw [heligible, QueuedBuild.filter_ne_first hids]
  · have hone : (s.waiting runner cutoff).countP (·.jobId = build.jobId) = 1 := by
      have hcount := List.count_eq_one_of_mem hnodup (List.mem_map_of_mem hmem)
      rw [List.count, List.countP_map] at hcount
      simpa [Function.comp_def, beq_eq_decide] using hcount
    rw [hwaiting, ← List.countP_eq_length_filter,
      List.length_eq_countP_add_countP (·.jobId = build.jobId), hone, Nat.add_comm]
    simp
  · obtain ⟨pending, hwrite⟩ := s.writeRow_frame build.jobId (row.taken claimant now)
    rw [hwrite]

end Store

/-! ## One poll -/

/-- A poll that nothing happens to but that the clocks go on. -/
structure LonePoll where
  options : PollOptions
  clock : Nat → Moment

namespace LonePoll

/-- The time at which the poll takes a build, if it takes one. -/
def claimedAt (p : LonePoll) : Instant :=
  (p.clock ((if p.options.queuedBefore.isSome then 1 else 2) + 1)).time

/-- The poll offers builds that were queued up to the cutoff, and its deadline does not come. -/
structure Fits (p : LonePoll) (engine : Engine) (cutoff : Instant) : Prop where
  cutoff_eq : engine.cutoffAt p.options p.clock = cutoff
  in_time : ∀ i, (p.clock i).tick < engine.deadlineAt p.options p.clock

/-- What a poll hands out that has this build before it. -/
def outcome (p : LonePoll) (runner : RunnerId) (build? : Option QueuedBuild) : PollOutcome :=
  match build? with
  | some build => .assigned ⟨build.jobId, runner, p.claimedAt⟩
  | none => .empty

end LonePoll

namespace Session

variable {engine : Engine} {runner : Runner} {cutoff : Instant}

/-- Whichever strategy is selected, polls read the queue. -/
def IsServed (engine : Engine) (t : Session) : Prop :=
  engine.failover = true ∨ t.selected = .directScan ∨ t.store.projectionAvailable = true

def poll (engine : Engine) (runner : Runner) (t : Session) (p : LonePoll) : Session :=
  t.step engine (.poll runner p.options (.steady p.clock))

def drained (engine : Engine) (runner : Runner) (t : Session) (polls : List LonePoll) : Session :=
  polls.foldl (poll engine runner) t

theorem poll_eq {t : Session} (hsound : t.store.Sound) (hserved : t.IsServed engine)
    (runner : Runner) (p : LonePoll) :
    t.poll engine runner p =
      ⟨(engine.pollAlone runner p.options p.clock t.store).2, t.selected,
        t.answers ++ [.polled (.ok (engine.pollAlone runner p.options p.clock t.store).1)]⟩ := by
  have hsteady : (Course.steady p.clock).IsSteady := ⟨fun _ ↦ rfl, rfl⟩
  have hserves : (Course.steady p.clock).Serves engine t.store t.selected :=
    hserved.imp_right fun hreach ↦ ⟨hsteady, hreach⟩
  obtain ⟨outcome, hresult, hout, n, hat⟩ :=
    Course.leads_poll (.steady p.clock) t.selected hsound hserves runner p.options
  obtain ⟨hstore, hselected⟩ := hat.steady hsteady
  change Session.mk (Desk.store _) (Desk.selected _) (t.answers ++ [.polled (Report.result _)]) = _
  rw [hstore, hselected, hresult, hout]
  rfl

/-- What some polls in a row leave of a session: the builds that were not handed out yet, in their
order, and answers that hand the others out. -/
structure Drained (runner : Runner) (cutoff : Instant) (t : Session) (polls : List LonePoll)
    (t' : Session) : Prop where
  sound : t'.store.Sound
  selected : t'.selected = t.selected
  available : t'.store.projectionAvailable = t.store.projectionAvailable
  eligible : t'.store.eligible runner cutoff = (t.store.eligible runner cutoff).drop polls.length
  waiting : (t'.store.waiting runner cutoff).length = (t.store.waiting runner cutoff).length -
    min polls.length (t.store.eligible runner cutoff).length
  answers : t'.answers = t.answers ++ polls.mapIdx fun k p ↦
    .polled (.ok (p.outcome runner.id (t.store.eligible runner cutoff)[k]?))
  /-- With nothing to hand out nothing changes. -/
  store : t.store.eligible runner cutoff = [] → t'.store = t.store

theorem Drained.isServed {t t' : Session} {polls : List LonePoll}
    (h : Drained runner cutoff t polls t') (hserved : t.IsServed engine) : t'.IsServed engine := by
  unfold IsServed
  rw [h.selected, h.available]
  exact hserved

theorem Drained.poll {t t' : Session} {polls : List LonePoll}
    (h : Drained runner cutoff t polls t') (hactive : runner.active = true)
    (hserved : t.IsServed engine) {p : LonePoll} (hp : p.Fits engine cutoff) :
    Drained runner cutoff t (polls ++ [p]) (t'.poll engine runner p) := by
  have hfirst : (t'.store.eligible runner cutoff).head? =
      (t.store.eligible runner cutoff)[polls.length]? := by
    rw [h.eligible, List.head?_drop]
  have hanswers : t'.answers ++
      [.polled (.ok (p.outcome runner.id (t'.store.eligible runner cutoff).head?))] =
      t.answers ++ (polls ++ [p]).mapIdx fun k p ↦
        .polled (.ok (p.outcome runner.id (t.store.eligible runner cutoff)[k]?)) := by
    rw [h.answers, hfirst, List.mapIdx_concat, List.append_assoc]
  have hlength := congrArg List.length h.eligible
  rw [List.length_drop] at hlength
  have hle : (t'.store.eligible runner cutoff).length ≤ (t'.store.waiting runner cutoff).length :=
    Store.length_eligible_le
  have halone : engine.pollAlone runner p.options p.clock t'.store =
      t'.store.handOut p.clock (if p.options.queuedBefore.isSome then 1 else 2)
        (engine.deadlineAt p.options p.clock) runner.id (t'.store.eligible runner cutoff) := by
    unfold Engine.pollAlone
    rw [hactive, hp.cutoff_eq]
    rfl
  rw [poll_eq h.sound (h.isServed hserved), halone]
  cases heligible : t'.store.eligible runner cutoff with
  | nil =>
    rw [heligible] at hanswers hlength
    have hend : (t.store.eligible runner cutoff).length ≤ polls.length := by
      rw [List.length_nil] at hlength
      omega
    exact {
      sound := h.sound
      selected := h.selected
      available := h.available
      eligible := by
        rw [List.length_append, List.drop_eq_nil_of_le (by omega)]
        exact heligible
      waiting := by
        rw [List.length_append, Nat.min_eq_right (by omega), ← Nat.min_eq_right hend]
        exact h.waiting
      answers := hanswers
      store := h.store }
  | cons build rest =>
    rw [heligible] at hanswers hlength
    obtain ⟨hrest, hwaiting, havailable⟩ :=
      h.sound.eligible_tryClaim heligible runner.id p.claimedAt
    rw [Store.handOut_cons, if_neg (Nat.not_le_of_lt (hp.in_time _))]
    exact {
      sound := h.sound.tryClaim _ _ _
      selected := h.selected
      available := havailable.trans h.available
      eligible := by
        rw [List.length_append, List.length_singleton, ← List.tail_drop, ← h.eligible, heligible]
        exact hrest
      waiting := by
        rw [List.length_append, List.length_singleton]
        have hbefore := h.waiting
        rw [List.length_cons] at hlength
        change ((t'.store.tryClaim build.jobId runner.id p.claimedAt).2.waiting _ _).length = _
        omega
      answers := hanswers
      store := by
        intro hnone
        rw [hnone, List.length_nil] at hlength
        simp at hlength }

theorem drained_append (t : Session) (polls : List LonePoll) (p : LonePoll) :
    t.drained engine runner (polls ++ [p]) = (t.drained engine runner polls).poll engine runner p := by
  unfold drained
  rw [List.foldl_append]
  rfl

theorem drained_drained (hactive : runner.active = true) {t : Session} (hsound : t.store.Sound)
    (hserved : t.IsServed engine) {polls : List LonePoll}
    (hpolls : ∀ p ∈ polls, p.Fits engine cutoff) :
    Drained runner cutoff t polls (t.drained engine runner polls) := by
  induction polls using List.reverseRecOn with
  | nil =>
    exact {
      sound := hsound
      selected := rfl
      available := rfl
      eligible := rfl
      waiting := by simp [drained]
      answers := by simp [drained]
      store := fun _ ↦ rfl }
  | append_singleton polls p ih =>
    rw [drained_append]
    exact (ih fun q hq ↦ hpolls q (List.mem_append_left _ hq)).poll hactive hserved
      (hpolls p (by simp))

/-- Once all that the runner may take is handed out, polls change nothing. -/
theorem store_drained_take (hactive : runner.active = true) {t : Session} (hsound : t.store.Sound)
    (hserved : t.IsServed engine) {polls : List LonePoll}
    (hpolls : ∀ p ∈ polls, p.Fits engine cutoff) {k : Nat}
    (hk : (t.store.eligible runner cutoff).length ≤ k) :
    (t.drained engine runner (polls.take k)).store =
      (t.drained engine runner (polls.take (t.store.eligible runner cutoff).length)).store := by
  set n := (t.store.eligible runner cutoff).length with hn
  have hfirst : Drained runner cutoff t (polls.take n) (t.drained engine runner (polls.take n)) :=
    drained_drained hactive hsound hserved fun p hp ↦ hpolls p (List.mem_of_mem_take hp)
  have htake : (polls.take k).take n = polls.take n := by
    rw [List.take_take, Nat.min_eq_left hk]
  by_cases hshort : polls.length ≤ n
  · rw [List.take_of_length_le hshort, List.take_of_length_le (Nat.le_trans hshort hk)]
  · have hnone : (t.drained engine runner (polls.take n)).store.eligible runner cutoff = [] := by
      rw [hfirst.eligible, List.length_take, Nat.min_eq_left (by omega), hn, List.drop_length]
    have hrest : Drained runner cutoff (t.drained engine runner (polls.take n))
        ((polls.take k).drop n) _ :=
      drained_drained hactive hfirst.sound (hfirst.isServed hserved) fun p hp ↦
        hpolls p (List.mem_of_mem_take (List.mem_of_mem_drop hp))
    rw [← hrest.store hnone]
    unfold drained
    rw [← List.foldl_append, ← htake, List.take_append_drop]

/-- The depth of the queue at a cutoff is the number of the builds that wait. -/
theorem queueDepth_eq {t : Session} (hsound : t.store.Sound) (hserved : t.IsServed engine)
    (runner : Runner) {clock : Nat → Moment} (hcutoff : engine.defaultCutoff (clock 0).time = cutoff) :
    ((engine.queueDepth runner).run (Course.steady clock).handle
        ⟨t.store, t.selected, 0, 0⟩).1.result =
      .ok (t.store.waiting runner cutoff).length := by
  have hserves : (Course.steady clock).Serves engine t.store t.selected :=
    hserved.imp_right fun hreach ↦ ⟨⟨fun _ ↦ rfl, rfl⟩, hreach⟩
  obtain ⟨hresult, -⟩ :=
    Course.leads_queueDepth (.steady clock) t.selected hsound hserves runner
  rw [hresult, ← hcutoff]
  rfl

end Session

/-- Polls of an active runner that are alone at a store, at one cutoff and in time, hand out the
builds that the runner may take, one after the other and oldest first, and then nothing, when they
leave the store as it is. The depth of the queue at that cutoff is at least their number, is their
number just if the runner may take all that waits in its scope, and goes down by one with each build
that is handed out. -/
theorem Engine.drains_in_order (ops : List StoreOperation) (engine : Engine) (runner : Runner)
    (selected : StrategyKind) (cutoff : Instant) (polls : List LonePoll)
    (hactive : runner.active = true)
    (hserved : engine.failover = true ∨ selected = .directScan ∨
      (Store.after ops).projectionAvailable = true)
    (hpolls : ∀ p ∈ polls, p.Fits engine cutoff) :
    let s := Store.after ops
    let after (k : Nat) : Session :=
      Session.drained engine runner ⟨s, selected, []⟩ (polls.take k)
    ∃ queue : List QueuedBuild,
      (∀ build, build ∈ queue ↔
        ∃ row, s.MayTake runner cutoff row build.queuedAt ∧ row.queued? = some build) ∧
      queue.Pairwise QueuedBuild.Before ∧
      (after polls.length).answers =
        polls.mapIdx (fun k p ↦ .polled (.ok (p.outcome runner.id queue[k]?))) ∧
      (∀ k, queue.length ≤ k → (after k).store = (after queue.length).store) ∧
      ∀ clock : Nat → Moment, engine.defaultCutoff (clock 0).time = cutoff →
        let depth (k : Nat) := ((engine.queueDepth runner).run (Course.steady clock).handle
          ⟨(after k).store, (after k).selected, 0, 0⟩).1.result
        ∃ d, depth 0 = .ok d ∧ queue.length ≤ d ∧
          (queue.length = d ↔ ∀ row queuedAt, s.Waits runner.scope cutoff row queuedAt →
            s.MayTake runner cutoff row queuedAt) ∧
          ∀ k ≤ polls.length, depth k = .ok (d - min k queue.length) := by
  intro s after
  have hsound : s.Sound := Store.sound_after ops
  have hstart : Session.IsServed engine ⟨s, selected, []⟩ := hserved
  have hafter (k : Nat) : Session.Drained runner cutoff ⟨s, selected, []⟩ (polls.take k) (after k) :=
    Session.drained_drained hactive hsound hstart fun p hp ↦ hpolls p (List.mem_of_mem_take hp)
  have hstill (k : Nat) : (after k).IsServed engine := (hafter k).isServed hstart
  refine ⟨s.eligible runner cutoff, fun build ↦ hsound.mem_eligible,
    (hsound.scanBuilds_pairwise _ _).filter _, ?_, ?_, ?_⟩
  · have hanswers := (hafter polls.length).answers
    rw [List.take_length] at hanswers
    exact hanswers
  · intro k hk
    exact Session.store_drained_take hactive hsound hstart hpolls hk
  · intro clock hclock depth
    have hdepth (k : Nat) : depth k = .ok ((after k).store.waiting runner cutoff).length := by
      exact Session.queueDepth_eq (hafter k).sound (hstill k) runner hclock
    refine ⟨(s.waiting runner cutoff).length, hdepth 0, Store.length_eligible_le,
      hsound.length_eligible_eq_iff, fun k hk ↦ ?_⟩
    rw [hdepth, (hafter k).waiting, List.length_take, Nat.min_eq_left hk]

/-- Three polls for two builds. -/
theorem Engine.drains_in_order_twoBuilds :
    let s := Store.after Store.twoBuilds
    let engine : Engine := ⟨false, .ofSeconds 1, .zero⟩
    let runner := Runner.ofProject ⟨10⟩
    let clock : Nat → Moment := fun _ ↦ ⟨0, default⟩
    let polls : List LonePoll := List.replicate 3 ⟨⟨none, some default⟩, clock⟩
    let after (k : Nat) : Session :=
      Session.drained engine runner ⟨s, .projection, []⟩ (polls.take k)
    runner.active = true ∧
    (engine.failover = true ∨ StrategyKind.projection = .directScan ∨
      s.projectionAvailable = true) ∧
    (∀ p ∈ polls, p.Fits engine default) ∧
    engine.defaultCutoff (clock 0).time = default ∧
    ∃ queue : List QueuedBuild,
      (∀ build, build ∈ queue ↔
        ∃ row, s.MayTake runner default row build.queuedAt ∧ row.queued? = some build) ∧
      queue.Pairwise QueuedBuild.Before ∧
      (after polls.length).answers =
        polls.mapIdx (fun k p ↦ .polled (.ok (p.outcome runner.id queue[k]?))) ∧
      ∃ d, ((engine.queueDepth runner).run (Course.steady clock).handle
          ⟨(after 0).store, (after 0).selected, 0, 0⟩).1.result = .ok d ∧ queue.length ≤ d := by
  intro s engine runner clock polls after
  have hserved : engine.failover = true ∨ StrategyKind.projection = .directScan ∨
      s.projectionAvailable = true := .inr (.inr (by decide))
  have hintime : ∀ i, (clock i).tick < engine.deadlineAt ⟨none, some default⟩ clock :=
    fun i ↦ by decide
  have hpolls : ∀ p ∈ polls, p.Fits engine default := by
    intro p hp
    rw [List.eq_of_mem_replicate hp]
    exact ⟨rfl, hintime⟩
  have hclock : engine.defaultCutoff (clock 0).time = default := by decide
  obtain ⟨queue, hmem, horder, hanswers, -, hdepth⟩ :=
    Engine.drains_in_order Store.twoBuilds engine runner .projection default polls rfl hserved hpolls
  obtain ⟨d, hd, hle, -⟩ := hdepth clock hclock
  exact ⟨rfl, hserved, hpolls, hclock, queue, hmem, horder, hanswers, d, hd, hle⟩

end BuildQueue
