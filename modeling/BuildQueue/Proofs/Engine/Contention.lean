import BuildQueue.Proofs.Engine.Course
import BuildQueue.Proofs.Engine.Deadline
import BuildQueue.Proofs.Store.Provenance

/-!
# Polls among rivals

While a poll runs, others may write to the store before each of its requests, so the snapshot that a
pass reads is out of date by the time it claims. What a build was put into the queue with never
changes, though: a pass that takes a build takes it as the snapshot showed it, and it passes over a
build only if it found that build no longer pending.
-/

namespace BuildQueue

/-- A snapshot of the queue or a claim. -/
def Request.isOnQueue : Request → Bool
  | .fetch .. | .claim .. => true
  | _ => false

theorem Request.isOnQueue_of_deadline? {q : Request} {deadline : Deadline}
    (h : q.deadline? = some deadline) : q.isOnQueue = false := by
  cases q <;> simp_all [deadline?, isOnQueue]

/-- The store after some writes. -/
def Store.applyAll (s : Store) (ops : List StoreOperation) : Store :=
  ops.foldl (fun s op ↦ (s.apply op).2) s

theorem Store.applyAll_after (ops later : List StoreOperation) :
    (Store.after ops).applyAll later = Store.after (ops ++ later) := List.foldl_append.symm

/-- A request with its reply, and the store that it met. -/
structure Sighting where
  store : Store
  exchange : Exchange

/-- A claim, and the store that it met. -/
structure Attempt where
  store : Store
  job : JobId
  runner : RunnerId

def Sighting.attempt? : Sighting → Option Attempt
  | ⟨store, ⟨.claim job runner, _⟩⟩ => some ⟨store, job, runner⟩
  | _ => none

def attemptsIn (seen : List Sighting) : List Attempt := seen.filterMap Sighting.attempt?

/-- A store that a poll shares with others, and what the poll has met so far. -/
structure Floor where
  store : Store
  seen : List Sighting

/-- What a poll meets at a store that it shares. -/
structure Crowd where
  /-- What others write before each request, first to last. -/
  rivals : Nat → List StoreOperation
  /-- The clocks and the selected strategy at each request. -/
  moment : Nat → Moment
  selected : Nat → StrategyKind
  /-- What is replied in the store's place to a request that is not on the queue. -/
  told : Nat → (q : Request) → Option (Reply q)

namespace Crowd

/-- Snapshots and claims are the store's own. -/
def reply (c : Crowd) (i : Nat) (q : Request) (own : Reply q) : Reply q :=
  if q.isOnQueue then own else (c.told i q).getD own

/-- The store that the next request meets. -/
def met (c : Crowd) (d : Floor) : Store := d.store.applyAll (c.rivals d.seen.length)

def handle (c : Crowd) : Handler Floor := fun q d ↦
  let i := d.seen.length
  let (own, store) := (c.met d).handle (c.moment i) (c.selected i) q
  let reply := c.reply i q own
  (reply, ⟨store, d.seen ++ [⟨c.met d, ⟨q, reply⟩⟩]⟩)

end Crowd

/-! ## Fair passes -/

/-- These builds were attempted in their order, once each, and none was pending then. -/
def AllLost (builds : List QueuedBuild) (attempts : List Attempt) : Prop :=
  attempts.map (·.job) = builds.map (·.jobId) ∧
    ∀ x ∈ attempts, x.store.status? x.job ≠ some .pending

/-- The attempt met the build pending, as it was queued, and eligible. -/
def Attempt.Meets (x : Attempt) (eligibility : Eligibility) (build : QueuedBuild) : Prop :=
  x.job = build.jobId ∧ eligibility.admits build = true ∧
    ∃ row, x.store.builds.find? build.jobId = some row ∧ row.status = .pending ∧
      row.queued? = some build

/-- How a pass over these candidates may end after what it met, given when it has to end. -/
def ClaimPass.Fair (eligibility : Eligibility) (deadline : Tick) (candidates : List QueuedBuild)
    (met : List Sighting) : ClaimPass → Prop
  | .ok (.assigned a _) => ∃ lost build later losing won,
      candidates = lost ++ build :: later ∧ attemptsIn met = losing ++ [won] ∧
        AllLost lost losing ∧ won.Meets eligibility build ∧ a.jobId = build.jobId ∧
        a.runnerId = eligibility.runner.id
  | .ok (.exhausted _) => AllLost candidates (attemptsIn met)
  | .ok (.timedOut _) => ∃ lost later earlier last now,
      candidates = lost ++ later ∧ AllLost lost (attemptsIn met) ∧ met = earlier ++ [last] ∧
        last.exchange = ⟨.tick, now⟩ ∧ deadline ≤ now
  | .error _ => False

/-- What a pass may come to, given what its snapshot showed and what it met then. -/
def ClaimPass.Follows (eligibility : Eligibility) (deadline : Tick) (met : List Sighting)
    (pass : ClaimPass) : Except QueueError (List QueuedBuild) → Prop
  | .error e => pass = .error (.snapshot e) ∧ attemptsIn met = []
  | .ok queue => queue.Pairwise QueuedBuild.Before ∧ ((attemptsIn met).map (·.job)).Nodup ∧
      pass.Fair eligibility deadline (eligibility.apply queue) met

/-- The report is that of a pass over one of the snapshots that were met, and this pass made all of
the attempts. -/
def Report.EndsPass (runner : Runner) (deadline : Tick) (seen : List Sighting)
    (report : Report PollOutcome) : Prop :=
  ∃ before snapshot strategy scope cutoff later failovers, ∃ pass : ClaimPass,
    seen = before ++ ⟨snapshot, ⟨.fetch strategy scope cutoff,
        .ofResult (snapshot.scan strategy scope cutoff)⟩⟩ :: later ∧
      attemptsIn before = [] ∧ report = pass.report failovers ∧
      pass.Follows ⟨runner, cutoff⟩ deadline later (snapshot.scan strategy scope cutoff)

theorem attemptsIn_append (seen more : List Sighting) :
    attemptsIn (seen ++ more) = attemptsIn seen ++ attemptsIn more := List.filterMap_append

theorem Sighting.attempt?_of_not_isOnQueue {x : Sighting}
    (h : x.exchange.request.isOnQueue = false) : x.attempt? = none := by
  obtain ⟨store, q, reply⟩ := x
  cases q with
  | claim job runner => simp [Request.isOnQueue] at h
  | _ => rfl

theorem attemptsIn_of_not_isOnQueue {seen : List Sighting}
    (h : ∀ x ∈ seen, x.exchange.request.isOnQueue = false) : attemptsIn seen = [] := by
  unfold attemptsIn
  rw [List.filterMap_eq_nil_iff]
  exact fun x hx ↦ Sighting.attempt?_of_not_isOnQueue (h x hx)

theorem allLost_nil : AllLost [] [] := ⟨rfl, by simp⟩

theorem AllLost.cons {builds : List QueuedBuild} {attempts : List Attempt}
    (h : AllLost builds attempts) {x : Attempt} {build : QueuedBuild} (hjob : x.job = build.jobId)
    (hlost : x.store.status? x.job ≠ some .pending) :
    AllLost (build :: builds) (x :: attempts) := by
  constructor
  · rw [List.map_cons, List.map_cons, h.1, hjob]
  · intro y hy
    rcases List.mem_cons.1 hy with rfl | hy
    · exact hlost
    · exact h.2 y hy

namespace ClaimPass

variable {eligibility : Eligibility} {deadline : Tick} {candidates : List QueuedBuild}
  {met : List Sighting} {pass : ClaimPass}

/-- A build that was lost may stand before everything else. -/
theorem Fair.cons (h : pass.Fair eligibility deadline candidates met) {before : List Sighting}
    {x : Attempt} {build : QueuedBuild} (hbefore : attemptsIn before = [x])
    (hjob : x.job = build.jobId) (hlost : x.store.status? x.job ≠ some .pending) :
    pass.Fair eligibility deadline (build :: candidates) (before ++ met) := by
  have hall : attemptsIn (before ++ met) = x :: attemptsIn met := by
    rw [attemptsIn_append, hbefore]
    rfl
  rcases pass with failure | a | skipped | skipped
  · exact h
  · obtain ⟨lost, taken, later, losing, won, rfl, hmet, hlosing, hwon⟩ := h
    refine ⟨build :: lost, taken, later, x :: losing, won, rfl, ?_, hlosing.cons hjob hlost, hwon⟩
    rw [hall, hmet]
    rfl
  · change AllLost _ _
    rw [hall]
    exact AllLost.cons h hjob hlost
  · obtain ⟨lost, later, earlier, last, now, rfl, hlosing, rfl, hlast⟩ := h
    refine ⟨build :: lost, later, before ++ earlier, last, now, rfl, ?_,
      (List.append_assoc _ _ _).symm, hlast⟩
    rw [hall]
    exact hlosing.cons hjob hlost

/-- What is attempted is a first part of the candidates. -/
theorem Fair.jobs_prefix (h : pass.Fair eligibility deadline candidates met) :
    (attemptsIn met).map (·.job) <+: candidates.map (·.jobId) := by
  rcases pass with failure | a | skipped | skipped
  · exact h.elim
  · obtain ⟨lost, taken, later, losing, won, rfl, hmet, hlosing, hwon, -⟩ := h
    refine ⟨later.map (·.jobId), ?_⟩
    simp [hmet, hlosing.1, hwon.1]
  · have hall : AllLost candidates (attemptsIn met) := h
    exact ⟨[], by rw [hall.1, List.append_nil]⟩
  · obtain ⟨lost, later, -, -, -, rfl, hall, -⟩ := h
    rw [hall.1, List.map_append]
    exact List.prefix_append _ _

/-- A pass that could not read its snapshot attempted nothing. -/
theorem Follows.attemptsIn_eq_nil {e : QueueError} {shown : Except QueueError (List QueuedBuild)}
    (h : ClaimPass.Follows eligibility deadline met (.error (.snapshot e)) shown) :
    attemptsIn met = [] := by
  cases shown with
  | error e' => exact h.2
  | ok queue => exact h.2.2.elim

end ClaimPass

/-! ## What a poll comes to -/

/-- The store was reached from the one after these operations. -/
def Floor.Since (d : Floor) (ops : List StoreOperation) : Prop :=
  ∃ later, d.store = Store.after (ops ++ later)

/-- Besides, nothing was asked on the queue so far. -/
def Floor.Calm (d : Floor) (ops : List StoreOperation) : Prop :=
  d.Since ops ∧ ∀ x ∈ d.seen, x.exchange.request.isOnQueue = false

/-- A build that a snapshot showed is pending as it was shown whenever it is pending later. -/
theorem Store.queued?_of_mem_scanBuilds {ops later : List StoreOperation} {scope : ProjectScope}
    {cutoff : Instant} {build : QueuedBuild}
    (hmem : build ∈ (Store.after ops).scanBuilds scope cutoff) {row : BuildRow}
    (hfound : (Store.after (ops ++ later)).builds.find? build.jobId = some row)
    (hpending : row.status = .pending) : row.queued? = some build := by
  have hshown := ((sound_after ops).mem_scanBuilds.1 hmem).1
  obtain ⟨shown, hshown, hqueued⟩ := Option.bind_eq_some_iff.1 hshown
  have hwas : shown.status = .pending := (queued?_eq_some_iff.1 hqueued).1
  rw [(keeps_after ops later).queued?_eq hshown hfound hwas hpending]
  exact hqueued

namespace Crowd

variable {α : Type} {c : Crowd} {ops : List StoreOperation} {d : Floor}

theorem seen_handle (c : Crowd) (q : Request) (d : Floor) :
    (c.handle q d).2.seen = d.seen ++ [⟨c.met d, ⟨q, (c.handle q d).1⟩⟩] := rfl

theorem exists_met (c : Crowd) (h : d.Since ops) :
    ∃ later, c.met d = Store.after (ops ++ later) := by
  obtain ⟨later, hstore⟩ := h
  refine ⟨later ++ c.rivals d.seen.length, ?_⟩
  unfold met
  rw [hstore, Store.applyAll_after, List.append_assoc]

/-- What is asked of a store makes it one that was reached by at most one operation more. -/
theorem since_of_met (hmet : c.met d = Store.after ops) (q : Request) :
    (c.handle q d).2.Since ops := by
  have hstore : (c.handle q d).2.store =
      ((c.met d).handle (c.moment d.seen.length) (c.selected d.seen.length) q).2 := rfl
  cases hq : q.operation? (c.moment d.seen.length).time with
  | none =>
    refine ⟨[], ?_⟩
    rw [hstore, (Store.handle_of_operation?_eq_none _ _ _ hq).1, hmet, List.append_nil]
  | some op =>
    refine ⟨[op], ?_⟩
    rw [hstore, (Store.handle_of_operation?_eq_some _ _ _ none hq).1, hmet,
      Store.after_append_singleton]

theorem since_handle (c : Crowd) (h : d.Since ops) (q : Request) :
    (c.handle q d).2.Since ops := by
  obtain ⟨later, hmet⟩ := c.exists_met h
  obtain ⟨more, hstore⟩ := since_of_met hmet q
  exact ⟨later ++ more, by rw [hstore, List.append_assoc]⟩

theorem leads_since (c : Crowd) (h : d.Since ops) (p : Program α) :
    p.Leads c.handle (fun _ d' ↦ d'.Since ops) d := by
  induction p generalizing d with
  | done a => exact h
  | ask q next ih => exact ih _ (c.since_handle h q)

/-- What was met stays met. -/
theorem leads_prefix (c : Crowd) (d : Floor) (p : Program α) :
    p.Leads c.handle (fun _ d' ↦ d.seen <+: d'.seen) d := by
  induction p generalizing d with
  | done a => exact List.prefix_rfl
  | ask q next ih => exact (List.prefix_append _ _).trans (ih _ (c.handle q d).2)

/-- A program that asks for nothing on the queue leaves the floor calm. -/
theorem leads_calm (c : Crowd) {past : List Exchange} {p : Program α}
    (hasks : p.Asks (fun _ q ↦ q.isOnQueue = false) past) (h : d.Calm ops) :
    p.Leads c.handle (fun _ d' ↦ d'.Calm ops) d := by
  induction p generalizing past d with
  | done a => exact h
  | ask q next ih =>
    have hseen : ∀ x ∈ (c.handle q d).2.seen, x.exchange.request.isOnQueue = false := by
      intro x hx
      rw [seen_handle] at hx
      rcases List.mem_append.1 hx with hx | hx
      · exact h.2 x hx
      · rw [List.mem_singleton.1 hx]
        exact hasks.1
    exact ih _ (hasks.2 _) ⟨c.since_handle h.1 q, hseen⟩

section Requests

variable {Q : α → Floor → Prop}

theorem leads_ask (c : Crowd) (h : d.Since ops) {q : Request} {next : Reply q → Program α}
    (hnext : ∀ reply d' x, d'.Since ops → x.exchange = ⟨q, reply⟩ → d'.seen = d.seen ++ [x] →
      (next reply).Leads c.handle Q d') : (Program.ask q next).Leads c.handle Q d := by
  rw [Program.leads_ask]
  exact hnext _ _ ⟨c.met d, ⟨q, _⟩⟩ (c.since_handle h q) rfl rfl

/-- A claim meets the build pending and takes it, or is lost. -/
theorem leads_claim (c : Crowd) (h : d.Since ops) (job : JobId) (runner : RunnerId)
    {next : Except QueueError (Option Assignment) → Program α}
    (htaken : ∀ later x row now d', x.store = Store.after (ops ++ later) →
      x.store.builds.find? job = some row → row.status = .pending →
      x.attempt? = some ⟨x.store, job, runner⟩ → d'.seen = d.seen ++ [x] →
      (next (.ok (some ⟨job, runner, now⟩))).Leads c.handle Q d')
    (hlost : ∀ x d', d'.Since ops → x.store.status? job ≠ some .pending →
      x.attempt? = some ⟨x.store, job, runner⟩ → d'.seen = d.seen ++ [x] →
      (next (.ok none)).Leads c.handle Q d') :
    (Program.ask (.claim job runner) next).Leads c.handle Q d := by
  obtain ⟨later, hmet⟩ := c.exists_met h
  obtain ⟨now, hreply⟩ : ∃ now, (c.handle (.claim job runner) d).1 =
      .ok ((c.met d).tryClaim job runner now).1 := ⟨_, rfl⟩
  have hseen := c.seen_handle (.claim job runner) d
  have hsince := c.since_handle h (.claim job runner)
  rw [Program.leads_ask]
  rw [hreply] at hseen ⊢
  rcases (c.met d).tryClaim_cases job runner now with
    ⟨row, hfound, hpending, hclaim⟩ | ⟨hnot, hclaim⟩
  · rw [hclaim] at hseen ⊢
    exact htaken later _ row now _ hmet hfound hpending rfl hseen
  · rw [hclaim] at hseen ⊢
    refine hlost _ _ hsince ?_ rfl hseen
    intro hpending
    obtain ⟨row, hfound, hstatus⟩ := Option.map_eq_some_iff.1 hpending
    exact hnot row hfound hstatus

end Requests

/-- A pass over builds that a snapshot showed is fair, whatever the rivals do meanwhile. -/
theorem leads_claimFirst (c : Crowd) (h : d.Since ops) {scope : ProjectScope} {cutoff : Instant}
    (eligibility : Eligibility) (deadline : Tick) (skipped : Nat) {builds : List QueuedBuild}
    (hshown : ∀ build ∈ builds, build ∈ (Store.after ops).scanBuilds scope cutoff)
    (hadmits : ∀ build ∈ builds, eligibility.admits build = true) :
    ((Feed.ofBuilds builds .done).claimFirst eligibility.runner.id deadline skipped).Leads c.handle
      (fun pass d' ↦ ∃ later, d'.seen = d.seen ++ later ∧
        pass.Fair eligibility deadline builds later) d := by
  induction builds generalizing d skipped with
  | nil => exact ⟨[], (List.append_nil _).symm, allLost_nil⟩
  | cons build builds ih =>
    apply c.leads_ask h
    intro now d₁ x h₁ hx hseen
    have hnone : x.attempt? = none :=
      Sighting.attempt?_of_not_isOnQueue (by rw [hx]; rfl)
    split
    next hlate =>
      have hnothing : attemptsIn [x] = [] := by simp [attemptsIn, hnone]
      refine ⟨[x], hseen, [], build :: builds, [], x, now, rfl, ?_, rfl, hx, hlate⟩
      rw [hnothing]
      exact allLost_nil
    next =>
      apply c.leads_claim h₁
      · intro later y row now d₂ hstore hfound hpending hy hseen₂
        have hattempt : attemptsIn [x, y] = [⟨y.store, build.jobId, eligibility.runner.id⟩] := by
          simp [attemptsIn, hnone, hy]
        have hbuild : build ∈ (Store.after ops).scanBuilds scope cutoff :=
          hshown build List.mem_cons_self
        have hqueued : row.queued? = some build :=
          Store.queued?_of_mem_scanBuilds hbuild (hstore ▸ hfound) hpending
        have hall : d₂.seen = d.seen ++ [x, y] := by
          rw [hseen₂, hseen, List.append_assoc]
          rfl
        refine ⟨[x, y], hall, [], build, builds, [], _, rfl, hattempt, allLost_nil, ?_, rfl, rfl⟩
        exact ⟨rfl, hadmits build List.mem_cons_self, row, hfound, hpending, hqueued⟩
      · intro y d₂ h₂ hnot hy hseen₂
        have hattempt : attemptsIn [x, y] = [⟨y.store, build.jobId, eligibility.runner.id⟩] := by
          simp [attemptsIn, hnone, hy]
        apply (ih h₂ (skipped + 1) (fun b hb ↦ hshown b (List.mem_cons_of_mem _ hb))
          (fun b hb ↦ hadmits b (List.mem_cons_of_mem _ hb))).imp
        rintro pass d₃ ⟨later, hseen₃, hfair⟩
        have hall : d₃.seen = d.seen ++ ([x, y] ++ later) := by
          rw [hseen₃, hseen₂, hseen, List.append_assoc, List.append_assoc]
          rfl
        exact ⟨[x, y] ++ later, hall, hfair.cons hattempt rfl hnot⟩

/-- A pass follows from the snapshot that it reads and the claims that it makes. -/
theorem leads_claimFrom (c : Crowd) (h : d.Since ops) (strategy : StrategyKind)
    (scope : ProjectScope) (eligibility : Eligibility) (deadline : Tick) :
    (claimFrom strategy scope eligibility deadline).Leads c.handle
      (fun pass d' ↦ ∃ snapshot later,
        d'.seen = d.seen ++ ⟨snapshot, ⟨.fetch strategy scope eligibility.cutoff,
          .ofResult (snapshot.scan strategy scope eligibility.cutoff)⟩⟩ :: later ∧
        pass.Follows eligibility deadline later
          (snapshot.scan strategy scope eligibility.cutoff)) d := by
  obtain ⟨later, hmet⟩ := c.exists_met h
  have hsound : (c.met d).Sound := by
    rw [hmet]
    exact Store.sound_after _
  have hsince := since_of_met hmet (.fetch strategy scope eligibility.cutoff)
  have hseen := c.seen_handle (.fetch strategy scope eligibility.cutoff) d
  have hfeed : (c.handle (.fetch strategy scope eligibility.cutoff) d).1 =
      .ofResult ((c.met d).scan strategy scope eligibility.cutoff) := rfl
  change (Program.ask (.fetch ..) _).Leads _ _ _
  rw [Program.leads_ask]
  rw [hfeed] at hseen ⊢
  generalize (c.handle (.fetch strategy scope eligibility.cutoff) d).2 = d₁ at hsince hseen ⊢
  have hscan := hsound.scan_eq strategy scope eligibility.cutoff
  split at hscan
  next =>
    have hshown : ∀ build ∈ eligibility.apply ((c.met d).scanBuilds scope eligibility.cutoff),
        build ∈ (Store.after (ops ++ later)).scanBuilds scope eligibility.cutoff := by
      intro build hmem
      rw [← hmet]
      exact (List.mem_filter.1 hmem).1
    have hadmits : ∀ build ∈ eligibility.apply ((c.met d).scanBuilds scope eligibility.cutoff),
        eligibility.admits build = true := fun build hmem ↦ (List.mem_filter.1 hmem).2
    rw [hscan]
    change (Feed.claimFirst _ _ (Feed.filter _ (Feed.ofBuilds _ .done)) 0).Leads _ _ _
    rw [Feed.filter_ofBuilds]
    apply (c.leads_claimFirst hsince eligibility deadline 0 hshown hadmits).imp
    rintro pass d₂ ⟨made, hmade, hfair⟩
    refine ⟨c.met d, made, by rw [hmade, hseen, hscan, List.append_assoc]; rfl, ?_⟩
    rw [hscan]
    refine ⟨hsound.scanBuilds_pairwise _ _, ?_, hfair⟩
    have hnodup := hsound.nodup_jobIds_scanBuilds scope eligibility.cutoff
    have hprefix := hfair.jobs_prefix
    exact (hnodup.sublist (List.filter_sublist.map _)).sublist hprefix.sublist
  next =>
    rw [hscan]
    refine ⟨c.met d, [], hseen, ?_⟩
    rw [hscan]
    exact ⟨rfl, rfl⟩

/-- The passes of a poll: one that fails made no attempt, so the last one made them all. -/
theorem leads_engine_claim (c : Crowd) (h : d.Since ops) (hnone : attemptsIn d.seen = [])
    (engine : Engine) (scope : ProjectScope) (eligibility : Eligibility) (deadline : Tick) :
    (engine.claim scope eligibility deadline).Leads c.handle
      (fun report d' ↦ report.EndsPass eligibility.runner deadline d'.seen) d := by
  unfold Engine.claim
  rw [Program.leads_bind]
  apply c.leads_ask h
  intro strategy d₁ x h₁ hx hseen₁
  have hnone₁ : attemptsIn d₁.seen = [] := by
    have hidle : x.attempt? = none :=
      Sighting.attempt?_of_not_isOnQueue (by rw [hx]; rfl)
    rw [hseen₁, attemptsIn_append, hnone]
    simp [attemptsIn, hidle]
  rw [Program.leads_done, Program.leads_bind]
  apply ((c.leads_since h₁ _).and (c.leads_claimFrom h₁ strategy scope eligibility deadline)).imp
  rintro pass d₂ ⟨h₂, snapshot, later, hseen₂, hfollows⟩
  have hends : Report.EndsPass eligibility.runner deadline d₂.seen (pass.report 0) :=
    ⟨d₁.seen, snapshot, strategy, scope, eligibility.cutoff, later, 0, pass, hseen₂, hnone₁, rfl,
      hfollows⟩
  rcases pass with (e | e) | result
  · change Program.Leads _ _ (if engine.canFailOver strategy then _ else _) _
    split
    next =>
      have hnone₂ : attemptsIn d₂.seen = [] := by
        have hlater : attemptsIn later = [] := hfollows.attemptsIn_eq_nil
        rw [hseen₂, List.append_cons, attemptsIn_append, attemptsIn_append, hnone₁, hlater]
        rfl
      rw [Program.leads_bind]
      apply (c.leads_claimFrom h₂ .directScan scope eligibility deadline).imp
      rintro pass d₃ ⟨snapshot, later, hseen₃, hfollows⟩
      exact ⟨d₂.seen, snapshot, .directScan, scope, eligibility.cutoff, later, 1, pass, hseen₃,
        hnone₂, rfl, hfollows⟩
    next => exact hends
  · exact hends
  · exact hends

end Crowd

/-- A poll at a store that others write to before each of its requests asks for no snapshot, makes
no claim and hands out nothing, if its runner is paused or its scope comes out empty. Any other poll
ends with a pass over the builds that are eligible in a snapshot it read. If that pass hands out a
build, the build was among them and pending when it was claimed, as it was queued and still
eligible, and everything before it was claimed exactly once and not pending then. If the pass is
exhausted, all of them were claimed exactly once, in queue order, and none was pending then. It
times out only after a reading of the clock that is not before the deadline. -/
theorem Engine.poll_passes_over_only_lost (ops : List StoreOperation) (c : Crowd) (engine : Engine)
    (runner : Runner) (options : PollOptions) :
    let run := (engine.poll runner options).run c.handle ⟨Store.after ops, []⟩
    (run.1.result = .ok .empty ∧ (∀ x ∈ run.2.seen, x.exchange.request.isOnQueue = false) ∧
      (runner.active = true → ∃ d deadline, d.seen <+: run.2.seen ∧
        ((runner.scope.resolve deadline).run c.handle d).1.scopeOrEmpty.isEmpty = true)) ∨
    ∃ first later start, run.2.seen = first :: later ∧ first.exchange = ⟨.tick, start⟩ ∧
      run.1.EndsPass runner (start + (options.timeout.getD engine.pollTimeout).nanos)
        run.2.seen := by
  intro run
  have hstart : Floor.Calm ⟨Store.after ops, []⟩ ops :=
    ⟨⟨[], by rw [List.append_nil]⟩, by simp⟩
  change (engine.poll runner options).Leads c.handle (fun report d ↦
    (report.result = .ok .empty ∧ (∀ x ∈ d.seen, x.exchange.request.isOnQueue = false) ∧
      (runner.active = true → ∃ d' deadline, d'.seen <+: d.seen ∧
        ((runner.scope.resolve deadline).run c.handle d').1.scopeOrEmpty.isEmpty = true)) ∨
    ∃ first later start, d.seen = first :: later ∧ first.exchange = ⟨.tick, start⟩ ∧
      report.EndsPass runner (start + (options.timeout.getD engine.pollTimeout).nanos) d.seen) _
  unfold poll
  cases hactive : runner.active with
  | false => exact .inl ⟨rfl, hstart.2, by simp⟩
  | true =>
    change Program.Leads _ _ (Program.request .tick >>= _) _
    rw [Program.leads_bind]
    apply c.leads_ask hstart.1
    intro start d₁ first hsince hfirst hseen
    rw [List.nil_append] at hseen
    have h₁ : d₁.Calm ops := by
      refine ⟨hsince, fun x hx ↦ ?_⟩
      rw [hseen, List.mem_singleton] at hx
      rw [hx, hfirst]
      rfl
    have hcutoff : (engine.cutoff options.queuedBefore).Asks (fun _ q ↦ q.isOnQueue = false) [] :=
      (engine.cutoff_asks _ rfl).imp fun past q hq ↦ by rw [hq.2]; rfl
    rw [Program.leads_done, Program.leads_bind]
    apply ((c.leads_calm hcutoff h₁).and (c.leads_prefix d₁ _)).imp
    rintro cutoff d₂ ⟨h₂, hprefix₂⟩
    have hresolve (deadline : Deadline) :
        (runner.scope.resolve deadline).Asks (fun _ q ↦ q.isOnQueue = false) [] :=
      (runner.scope.resolve_asks deadline rfl).imp
        fun past q hq ↦ Request.isOnQueue_of_deadline? hq.2.deadline?_eq
    rw [Program.leads_bind]
    apply ((c.leads_calm (hresolve _) h₂).and
      ((c.leads_prefix d₂ _).and (Program.leads_result c.handle _ d₂))).imp
    rintro resolution d₃ ⟨h₃, hprefix₃, hresolution⟩
    have hidle (hempty : resolution.scopeOrEmpty.isEmpty = true) : ∃ d' deadline,
        d'.seen <+: d₃.seen ∧
          ((runner.scope.resolve deadline).run c.handle d').1.scopeOrEmpty.isEmpty = true :=
      ⟨d₂, _, hprefix₃, hresolution ▸ hempty⟩
    cases resolution with
    | failed e => exact .inl ⟨rfl, h₃.2, fun _ ↦ hidle rfl⟩
    | timedOut => exact .inl ⟨rfl, h₃.2, fun _ ↦ hidle rfl⟩
    | scope scope =>
      change Program.Leads _ _ (ite _ _ _) _
      split
      next hempty => exact .inl ⟨rfl, h₃.2, fun _ ↦ hidle hempty⟩
      next =>
        have hnone : attemptsIn d₃.seen = [] := attemptsIn_of_not_isOnQueue h₃.2
        apply ((c.leads_engine_claim h₃.1 hnone engine scope ⟨runner, cutoff⟩ _).and
          (c.leads_prefix d₃ _)).imp
        rintro report d₄ ⟨hends, hprefix₄⟩
        obtain ⟨later, hlater⟩ := (hprefix₂.trans hprefix₃).trans hprefix₄
        rw [hseen] at hlater
        exact .inr ⟨first, later, start, hlater.symm, hfirst, hends⟩

/-- A rival takes the only build between the snapshot and the claim. -/
example :
    let s := Store.after [.putProject (.opened ⟨10⟩ ⟨1⟩),
      .enqueue ⟨⟨10⟩, .empty, false, default⟩]
    let c : Crowd :=
      { rivals := fun i ↦ if i = 4 then [.tryClaim ⟨1⟩ ⟨8⟩ default] else []
        moment := fun _ ↦ ⟨0, default⟩
        selected := fun _ ↦ .projection
        told := fun _ _ ↦ none }
    let engine : Engine := ⟨true, .ofSeconds 1, .zero⟩
    let runner : Runner := ⟨⟨7⟩, .everything, .empty, true, true, true⟩
    let run := (engine.poll runner ⟨none, some default⟩).run c.handle ⟨s, []⟩
    run.1.result = .ok .empty ∧ (attemptsIn run.2.seen).map (·.job) = [⟨1⟩] := by
  decide +kernel

end BuildQueue
