import BuildQueue.Proofs.Engine.Failures

/-!
# Builds claimed again

A pass claims the builds of its snapshot in their order, each at most once if its snapshot shows
each at most once. The pass after a failover does not know what the first one lost: a build that
both snapshots show is claimed twice in the same poll.
-/

namespace BuildQueue

/-! ## What a snapshot yields -/

/-- The builds of a feed whose statements are given these answers. -/
def Feed.builds : Feed → List Postgres.Answer → List QueuedBuild
  | .done, _ => []
  | .item (.ok build) rest, answers => build :: rest.builds answers
  | .item (.error _) rest, answers => rest.builds answers
  | .wait _ rest, answers => rest.builds answers
  | .stall, _ => []
  | .statement _ next, answer :: answers => (next answer).builds answers
  | .statement .., [] => []

/-- The build that a claim was for. -/
def Exchange.claimed? : Exchange → Option JobId
  | ⟨.claim job _, _⟩ => some job
  | _ => none

def Exchange.answer? : Exchange → Option Postgres.Answer
  | ⟨.statement .., answer⟩ => answer
  | _ => none

/-- The builds that were claimed, in the order of their claims. -/
def claimedIn (past : List Exchange) : List JobId := past.filterMap Exchange.claimed?

/-- The answers that the statements of a transcript were given. -/
def answersIn (past : List Exchange) : List Postgres.Answer := past.filterMap Exchange.answer?

/-- The snapshots of a transcript, each with what was asked until the next one. -/
def snapshotsIn : List Exchange → List (Feed × List Exchange)
  | [] => []
  | ⟨.fetch .., snapshot⟩ :: after =>
    (snapshot, after.takeWhile fun x ↦ !x.isFetch) :: snapshotsIn after
  | _ :: after => snapshotsIn after

/-- Every snapshot of the transcript yields any build at most once. -/
def YieldsOnce (past : List Exchange) : Prop :=
  ∀ read ∈ snapshotsIn past, ((read.1.builds (answersIn read.2)).map (·.jobId)).Nodup

theorem mem_snapshotsIn (before after : List Exchange) (strategy : StrategyKind)
    (scope : ProjectScope) (cutoff : Instant) (snapshot : Feed) :
    (snapshot, after.takeWhile fun x ↦ !x.isFetch) ∈
      snapshotsIn (before ++ ⟨.fetch strategy scope cutoff, snapshot⟩ :: after) := by
  induction before with
  | nil => exact List.mem_cons_self
  | cons x before ih =>
    obtain ⟨q, reply⟩ := x
    cases q with
    | fetch => exact List.mem_cons_of_mem _ ih
    | _ => exact ih

theorem claimedIn_append (past later : List Exchange) :
    claimedIn (past ++ later) = claimedIn past ++ claimedIn later := List.filterMap_append

namespace Feed

theorem builds_filter (admits : QueuedBuild → Bool) (feed : Feed) (answers : List Postgres.Answer) :
    (feed.filter admits).builds answers = (feed.builds answers).filter admits := by
  induction feed generalizing answers with
  | done => rfl
  | item entry rest ih =>
    cases entry with
    | error e => exact ih answers
    | ok build =>
      unfold filter
      by_cases hadmits : admits build = true
      · rw [if_pos hadmits, builds, builds, ih, List.filter_cons_of_pos hadmits]
      · rw [if_neg hadmits, builds, ih, List.filter_cons_of_neg hadmits]
  | wait nanos rest ih => exact ih answers
  | stall => rfl
  | statement s next ih =>
    cases answers with
    | nil => rfl
    | cons answer answers => exact ih answer answers

variable {runner : RunnerId} {deadline : Tick} {feed left : Feed} {made last : List Exchange}

/-- A walk has claimed what the feed yields before what is left of it. -/
theorem Walk.claimedIn_append (h : feed.Walk runner deadline made left)
    (answers : List Postgres.Answer) :
    (feed.builds (answersIn made ++ answers)).map (·.jobId) =
      claimedIn made ++ (left.builds answers).map (·.jobId) := by
  induction h with
  | here feed => rfl
  | lost hnow h ih => exact congrArg _ ih
  | waited h ih => exact ih
  | @answered s next answer left made h ih =>
    change ((Feed.statement s next).builds (answer :: (answersIn made ++ answers))).map _ = _
    rw [builds]
    exact ih

theorem Stops.claimedIn_prefix {skipped : Nat} {pass : ClaimPass}
    (h : left.Stops runner deadline skipped last pass) :
    claimedIn last <+: (left.builds (answersIn last)).map (·.jobId) := by
  cases h with
  | refused build rest hnow e => exact List.prefix_append [build.jobId] _
  | taken build rest hnow a => exact List.prefix_append [build.jobId] _
  | _ => exact List.nil_prefix

end Feed

/-- A pass claims the builds that it is shown and admits, as far as it comes. -/
theorem Pass.Runs.claimedIn_prefix {eligibility : Eligibility} {deadline : Tick} {p : Pass}
    (h : p.Runs eligibility deadline) :
    claimedIn p.made <+:
      ((p.snapshot.builds (answersIn p.made)).filter eligibility.admits).map (·.jobId) := by
  obtain ⟨walked, left, last, hmade, hwalk, hstops⟩ := Feed.exists_walk h
  have hanswers : answersIn p.made = answersIn walked ++ answersIn last := by
    rw [hmade]
    exact List.filterMap_append
  rw [← Feed.builds_filter, hanswers, hmade, claimedIn_append]
  exact hwalk.claimedIn_append _ ▸
    (List.prefix_append_right_inj (claimedIn walked)).2 hstops.claimedIn_prefix

theorem Pass.Runs.nodup_claimedIn {eligibility : Eligibility} {deadline : Tick} {p : Pass}
    (h : p.Runs eligibility deadline)
    (honce : ((p.snapshot.builds (answersIn p.made)).map (·.jobId)).Nodup) :
    (claimedIn p.made).Nodup :=
  (honce.sublist (List.filter_sublist.map _)).sublist h.claimedIn_prefix.sublist

/-! ## Passes in a transcript -/

/-- Where snapshots yield no build twice, a pass claims none twice. -/
theorem YieldsOnce.nodup_claimedIn {past front rest : List Exchange} (honce : YieldsOnce past)
    {scope : ProjectScope} {cutoff : Instant} {eligibility : Eligibility} {deadline : Tick}
    {p : Pass} (h : p.Runs eligibility deadline)
    (hpast : past = front ++ (p.exchanges scope cutoff ++ rest))
    (hrest : rest.takeWhile (fun x ↦ !x.isFetch) = []) : (claimedIn p.made).Nodup := by
  have hmade : (p.made ++ rest).takeWhile (fun x ↦ !x.isFetch) = p.made := by
    rw [List.takeWhile_append_of_pos fun x hx ↦ by rw [h.isFetch x hx]; rfl, hrest,
      List.append_nil]
  have hread := mem_snapshotsIn front (p.made ++ rest) p.strategy scope cutoff p.snapshot
  rw [hmade] at hread
  rw [Pass.exchanges, List.cons_append] at hpast
  exact h.nodup_claimedIn (honce _ (hpast ▸ hread))

/-- What is known of the claims of a poll, apart for its last pass and for what was before. -/
structure ClaimsByPass (past : List Exchange) (report : Report PollOutcome) : Prop where
  before : (claimedIn (beforeLastPass past)).Nodup
  last : (claimedIn (lastPass past)).Nodup
  lost : ∀ x ∈ beforeLastPass past, x.claimed?.isSome = true → x.isLost = true
  only_pass : report.metrics.failovers = 0 → claimedIn (beforeLastPass past) = []

theorem Exchange.claimed?_of_isIdle {x : Exchange} (h : x.request.isIdle = true) :
    x.claimed? = none := by
  obtain ⟨q, reply⟩ := x
  cases q <;> simp_all [Request.isIdle, claimed?]

theorem claimedIn_of_isIdle {past : List Exchange} (h : ∀ x ∈ past, x.request.isIdle = true) :
    claimedIn past = [] :=
  List.filterMap_eq_nil_iff.2 fun x hx ↦ Exchange.claimed?_of_isIdle (h x hx)

theorem ClaimsByPass.of_isIdle {past : List Exchange} (report : Report PollOutcome)
    (h : ∀ x ∈ past, x.request.isIdle = true) : ClaimsByPass past report := by
  have hfirst : beforeLastPass past <+: past := List.rdropWhile_prefix _ past
  have hrest : lastPass past <:+ past := List.rtakeWhile_suffix _ past
  have hbefore (x : Exchange) (hx : x ∈ beforeLastPass past) : x.request.isIdle = true :=
    h x (hfirst.mem hx)
  have hlast (x : Exchange) (hx : x ∈ lastPass past) : x.request.isIdle = true :=
    h x (hrest.mem hx)
  constructor
  · rw [claimedIn_of_isIdle hbefore]
    exact List.nodup_nil
  · rw [claimedIn_of_isIdle hlast]
    exact List.nodup_nil
  · intro x hx hclaim
    rw [Exchange.claimed?_of_isIdle (hbefore x hx)] at hclaim
    cases hclaim
  · exact fun _ ↦ claimedIn_of_isIdle hbefore

theorem Feed.Walk.isLost {runner : RunnerId} {deadline : Tick} {feed left : Feed}
    {made : List Exchange} (h : feed.Walk runner deadline made left) {x : Exchange} (hx : x ∈ made)
    (hclaim : x.claimed?.isSome = true) : x.isLost = true := by
  obtain ⟨q, reply⟩ := x
  cases q with
  | claim job claimant =>
    rw [h.claim_lost hx]
    rfl
  | _ => cases hclaim

theorem ClaimPass.report_failovers (failovers : UInt64) (pass : ClaimPass) :
    (pass.report failovers).metrics.failovers = failovers := by
  rcases pass with failure | a | skipped | skipped
  · rfl
  · rfl
  · exact UInt64.zero_add failovers
  · exact UInt64.zero_add failovers

/-- What is known of the claims before a pass is known of a poll that ends with this pass. -/
theorem ClaimsByPass.of_last {past front : List Exchange} {report : Report PollOutcome}
    {scope : ProjectScope} {cutoff : Instant} {eligibility : Eligibility} {deadline : Tick}
    {p : Pass} (hruns : p.Runs eligibility deadline)
    (hpast : past = front ++ p.exchanges scope cutoff) (honce : YieldsOnce past)
    (hfront : (claimedIn front).Nodup)
    (hlost : ∀ x ∈ front, x.claimed?.isSome = true → x.isLost = true)
    (honly : report.metrics.failovers = 0 → claimedIn front = []) : ClaimsByPass past report := by
  have hmade : (claimedIn p.made).Nodup :=
    honce.nodup_claimedIn hruns (by rw [hpast, List.append_nil]) rfl
  obtain ⟨hlast, hbefore⟩ := hruns.lastPass front scope cutoff
  have hclaimed : claimedIn (front ++ [⟨.fetch p.strategy scope cutoff, p.snapshot⟩]) =
      claimedIn front := by
    rw [claimedIn_append]
    exact List.append_nil _
  rw [← hpast] at hlast hbefore
  constructor
  · rwa [hbefore, hclaimed]
  · rwa [hlast]
  · rw [hbefore]
    intro x hx hclaim
    rcases List.mem_append.1 hx with hx | hx
    · exact hlost x hx hclaim
    · obtain rfl := List.mem_singleton.1 hx
      cases hclaim
  · rwa [hbefore, hclaimed]

theorem Engine.Makes.claimsByPass {engine : Engine} {eligibility : Eligibility} {deadline : Tick}
    {passes : List Pass} {report : Report PollOutcome}
    (h : engine.Makes eligibility deadline passes report) {front past : List Exchange}
    {scope : ProjectScope} {cutoff : Instant} (hfront : ∀ x ∈ front, x.request.isIdle = true)
    (hpast : past = front ++ passes.flatMap (Pass.exchanges scope cutoff))
    (honce : YieldsOnce past) : ClaimsByPass past report := by
  have hidle (x : Exchange) (hx : x ∈ front) : x.claimed?.isSome ≠ true := by
    simp [Exchange.claimed?_of_isIdle (hfront x hx)]
  have hnone : claimedIn front = [] := claimedIn_of_isIdle hfront
  cases h with
  | one hruns hstays =>
    refine .of_last hruns (by simpa using hpast) honce ?_ ?_ fun _ ↦ hnone
    · rw [hnone]
      exact List.nodup_nil
    · exact fun x hx hclaim ↦ absurd hclaim (hidle x hx)
  | @two first second e hfirst hfails hover hsecond hscan =>
    obtain ⟨rest, hwalk⟩ := hfails
    have hclaimed : claimedIn (front ++ first.exchanges scope cutoff) = claimedIn first.made := by
      rw [claimedIn_append, hnone]
      rfl
    have hsplit :
        past = front ++ first.exchanges scope cutoff ++ second.exchanges scope cutoff := by
      simpa using hpast
    refine .of_last hsecond hsplit honce ?_ ?_ fun hzero ↦ ?_
    · rw [hclaimed]
      exact honce.nodup_claimedIn hfirst (by simpa using hpast) rfl
    · intro x hx hclaim
      rcases List.mem_append.1 hx with hx | hx
      · exact absurd hclaim (hidle x hx)
      rcases List.mem_cons.1 hx with rfl | hx
      · cases hclaim
      · exact hwalk.isLost hx hclaim
    · rw [ClaimPass.report_failovers] at hzero
      exact absurd hzero (by decide)

theorem Stages.Of.claimsByPass {engine : Engine} {runner : Runner} {options : PollOptions}
    {report : Report PollOutcome} {s : Stages} (h : s.Of engine runner options report)
    (honce : YieldsOnce s.exchanges) : ClaimsByPass s.exchanges report := by
  cases hempty : s.scope.isEmpty with
  | true =>
    refine .of_isIdle report fun x hx ↦ (h.front x ?_).1
    rwa [s.exchanges_eq, (h.empty hempty).1, List.flatMap_nil, List.append_nil] at hx
  | false =>
    exact (h.makes hempty).claimsByPass (fun x hx ↦ (h.front x hx).1) s.exchanges_eq honce

/-- Where snapshots yield no build twice, a poll claims no build twice just if its last pass claims
nothing that a pass before it has lost. No build is claimed more than twice, and without a failover
none is claimed again. -/
theorem Engine.claims_repeat_over_passes {engine : Engine} {runner : Runner} {options : PollOptions}
    {past : List Exchange} {report : Report PollOutcome}
    (h : (engine.poll runner options).Completes past report) (honce : YieldsOnce past) :
    ((claimedIn past).Nodup ↔
      ∀ job ∈ claimedIn (lastPass past), job ∉ claimedIn (beforeLastPass past)) ∧
    (∀ job, (claimedIn past).count job ≤ 2) ∧
    (∀ x ∈ beforeLastPass past, x.claimed?.isSome = true → x.isLost = true) ∧
    (report.metrics.failovers = 0 →
      claimedIn (beforeLastPass past) = [] ∧ (claimedIn past).Nodup) := by
  have hpasses : ClaimsByPass past report := by
    cases hactive : runner.active with
    | false =>
      rw [poll_of_paused engine options hactive] at h
      obtain ⟨rfl, -⟩ := Program.completes_done.1 h
      exact .of_isIdle report (by simp)
    | true =>
      obtain ⟨s, rfl, hs⟩ := Engine.poll_completes hactive h
      exact hs.claimsByPass honce
  have hsplit : claimedIn past = claimedIn (beforeLastPass past) ++ claimedIn (lastPass past) := by
    rw [← claimedIn_append]
    exact congrArg claimedIn List.rdropWhile_append_rtakeWhile.symm
  refine ⟨?_, fun job ↦ ?_, hpasses.lost, fun hfailovers ↦ ?_⟩
  · rw [hsplit, List.nodup_append]
    constructor
    · rintro ⟨-, -, hdisjoint⟩ job hlast hbefore
      exact hdisjoint job hbefore job hlast rfl
    · intro hdisjoint
      refine ⟨hpasses.before, hpasses.last, ?_⟩
      rintro job hbefore _ hlast rfl
      exact hdisjoint job hlast hbefore
  · have hbefore := List.nodup_iff_count_le_one.1 hpasses.before job
    have hlast := List.nodup_iff_count_le_one.1 hpasses.last job
    rw [hsplit, List.count_append]
    exact Nat.add_le_add hbefore hlast
  · have hnone := hpasses.only_pass hfailovers
    refine ⟨hnone, ?_⟩
    rw [hsplit, hnone]
    exact hpasses.last

/-- One pending build that was handed out without the store, in front of a projection that shows it
and then breaks off. -/
def Bench.withheld : Bench :=
  { Bench.base
      { BenchParts.stored with
        projection := .script .projection [.store, .error (.backend "connection reset")] none
        claims := .script { ClaimScript.plain with standsIn := true } } with
    handedOut := .ofList [⟨1⟩] }

/-- What a poll asks that meets the withheld build. -/
def Bench.withheldPoll (failover : Bool) : List Exchange × Report PollOutcome :=
  let poll := ({ Bench.withheld.engine with failover } : Engine).poll
    ⟨⟨7⟩, .everything, .empty, true, true, true⟩ ⟨none, some default⟩
  (poll.transcript Bench.handle Bench.withheld, (poll.run Bench.handle Bench.withheld).1)

/-- With failover the build is claimed twice and no more; without it is claimed once. -/
theorem Engine.claims_repeat_over_passes_withheld :
    let again := Bench.withheldPoll true
    let once := Bench.withheldPoll false
    YieldsOnce again.1 ∧ YieldsOnce once.1 ∧ (claimedIn again.1).count ⟨1⟩ = 2 ∧
    (∀ job, (claimedIn again.1).count job ≤ 2) ∧
    (∀ x ∈ beforeLastPass again.1, x.claimed?.isSome = true → x.isLost = true) ∧
    once.2.metrics.failovers = 0 ∧ claimedIn once.1 = [⟨1⟩] ∧ (claimedIn once.1).Nodup := by
  intro again once
  have hagain : YieldsOnce again.1 := by
    unfold YieldsOnce
    decide +kernel
  have honce : YieldsOnce once.1 := by
    unfold YieldsOnce
    decide +kernel
  have hfailovers : once.2.metrics.failovers = 0 := by decide +kernel
  obtain ⟨-, hcount, hlost, -⟩ :=
    Engine.claims_repeat_over_passes (Program.completes_run _ _ _) hagain
  obtain ⟨-, -, -, hsame⟩ := Engine.claims_repeat_over_passes (Program.completes_run _ _ _) honce
  exact ⟨hagain, honce, by decide +kernel, hcount, hlost, hfailovers, by decide +kernel,
    (hsame hfailovers).2⟩

/-- After the failover the lost build is claimed, and lost, once more. -/
theorem Engine.lost_build_claimed_again :
    let past := (Bench.withheldPoll true).1
    YieldsOnce past ∧ claimedIn past = [⟨1⟩, ⟨1⟩] ∧ ¬ (claimedIn past).Nodup := by
  unfold YieldsOnce
  decide +kernel

end BuildQueue
