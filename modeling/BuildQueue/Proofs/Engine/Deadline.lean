import BuildQueue.Proofs.Engine.Transcript
import BuildQueue.Proofs.Store.Effect
import BuildQueue.Store.Service

/-!
# Claims in time

A poll fixes its deadline when it starts and puts it to every lookup, wait and statement of both its
passes. It asks for a claim only right after a reading of the clock before the deadline, and once a
claim was given something it asks for nothing more.
-/

namespace BuildQueue

/-- The deadline of a request that may have to wait. -/
def Request.deadline? : Request → Option Deadline
  | .descendants _ deadline | .projects _ deadline | .wait _ deadline | .statement _ deadline =>
    some deadline
  | _ => none

/-- A lookup of the directory with this deadline. -/
def Request.IsLookup (deadline : Deadline) : Request → Prop
  | .descendants _ d | .projects _ d => d = deadline
  | _ => False

theorem Request.IsLookup.deadline?_eq {q : Request} {deadline : Deadline}
    (h : q.IsLookup deadline) : q.deadline? = some deadline := by
  cases q <;> simp_all [IsLookup, deadline?]

/-- A reading of the clock that deadlines are measured on. -/
def Exchange.tick? : Exchange → Option Tick
  | ⟨.tick, now⟩ => some now
  | _ => none

/-- Nothing was taken so far, waiting ends at the deadline, and a claim is made for the runner right
after the clock was read before the deadline. -/
structure InTime (deadline : Tick) (runner : RunnerId) (past : List Exchange) (q : Request) :
    Prop where
  nothing_taken : takenIn past = []
  deadline_eq : ∀ d, q.deadline? = some d → d = some deadline
  claim : ∀ job claimant, q = .claim job claimant →
    claimant = runner ∧ ∃ earlier now, past = earlier ++ [⟨.tick, now⟩] ∧ now < deadline

variable {past : List Exchange} {deadline : Tick} {runner : RunnerId}

namespace InTime

theorem of_not_claim {q : Request} (hpast : takenIn past = [])
    (hclaim : ∀ job claimant, q ≠ .claim job claimant)
    (hdeadline : ∀ d, q.deadline? = some d → d = some deadline) : InTime deadline runner past q :=
  ⟨hpast, hdeadline, fun job claimant hq ↦ absurd hq (hclaim job claimant)⟩

/-- A request without a deadline that claims nothing is in time whenever it comes. -/
theorem of_untimed {q : Request} (hpast : takenIn past = [])
    (hclaim : ∀ job claimant, q ≠ .claim job claimant) (hq : q.deadline? = none) :
    InTime deadline runner past q :=
  of_not_claim hpast hclaim (by simp [hq])

theorem of_deadline {q : Request} (hpast : takenIn past = [])
    (hq : q.deadline? = some (some deadline)) : InTime deadline runner past q := by
  refine of_not_claim hpast ?_ ?_
  · rintro job claimant rfl
    simp [Request.deadline?] at hq
  · intro d hd
    rw [hq, Option.some.injEq] at hd
    exact hd.symm

end InTime

/-! ## What is asked -/

theorem Feed.claimFirst_asks (runner : RunnerId) (deadline : Tick) (feed : Feed) (skipped : Nat)
    (hpast : takenIn past = []) :
    (feed.claimFirst runner deadline skipped).Asks (InTime deadline runner) past := by
  induction feed generalizing past skipped with
  | done => trivial
  | item entry rest ih =>
    cases entry with
    | error e => trivial
    | ok build =>
      refine ⟨.of_untimed hpast (by simp) rfl, fun now ↦ ?_⟩
      have hnow : takenIn (past ++ [⟨.tick, now⟩]) = [] := takenIn_nothing hpast rfl
      change Program.Asks _ _ (ite _ _ _)
      split
      next => trivial
      next hearly =>
        refine ⟨⟨hnow, by simp [Request.deadline?], ?_⟩, fun reply ↦ ?_⟩
        · intro job claimant hclaim
          obtain ⟨-, rfl⟩ := Request.claim.inj hclaim
          exact ⟨rfl, past, now, rfl, Nat.lt_of_not_le hearly⟩
        · rcases reply with e | _ | a
          · trivial
          · exact ih (skipped + 1) (takenIn_nothing hnow rfl)
          · trivial
  | wait nanos rest ih =>
    refine ⟨.of_deadline hpast rfl, fun reply ↦ ?_⟩
    cases reply with
    | true => exact ih skipped (takenIn_nothing hpast rfl)
    | false => trivial
  | stall => exact ⟨.of_deadline hpast rfl, fun reply ↦ trivial⟩
  | statement s next ih =>
    unfold Feed.claimFirst
    refine ⟨.of_deadline hpast rfl, fun reply ↦ ?_⟩
    cases reply with
    | some answer => exact ih answer skipped (takenIn_nothing hpast rfl)
    | none => trivial

theorem claimFrom_asks (strategy : StrategyKind) (scope : ProjectScope) (eligibility : Eligibility)
    (deadline : Tick) (hpast : takenIn past = []) :
    (claimFrom strategy scope eligibility deadline).Asks
      (InTime deadline eligibility.runner.id) past := by
  refine ⟨.of_untimed hpast (by simp) rfl, fun feed ↦ ?_⟩
  exact Feed.claimFirst_asks _ _ _ _ (takenIn_nothing hpast rfl)

/-- A scope is resolved by lookups alone, all of them with the deadline given. -/
theorem RunnerScope.resolve_asks (scope : RunnerScope) (deadline : Deadline)
    (hpast : takenIn past = []) :
    (scope.resolve deadline).Asks
      (fun past q ↦ takenIn past = [] ∧ q.IsLookup deadline) past := by
  cases scope with
  | everything => trivial
  | group root =>
    refine ⟨⟨hpast, rfl⟩, fun reply ↦ ?_⟩
    rcases reply with _ | e | ids
    · trivial
    · trivial
    · refine ⟨⟨takenIn_nothing hpast rfl, rfl⟩, fun reply ↦ ?_⟩
      rcases reply with _ | e | records <;> trivial
  | project ids =>
    refine ⟨⟨hpast, rfl⟩, fun reply ↦ ?_⟩
    rcases reply with _ | e | records <;> trivial

namespace Engine

theorem cutoff_asks (engine : Engine) (cutoff : Option Instant) (hpast : takenIn past = []) :
    (engine.cutoff cutoff).Asks (fun past q ↦ takenIn past = [] ∧ q = .wallClock) past := by
  cases cutoff with
  | some cutoff => trivial
  | none => exact ⟨⟨hpast, rfl⟩, fun now ↦ trivial⟩

/-- A pass that failed took nothing, so the next one may claim. -/
theorem claim_asks (engine : Engine) (scope : ProjectScope) (eligibility : Eligibility)
    (deadline : Tick) (hpast : takenIn past = []) :
    (engine.claim scope eligibility deadline).Asks (InTime deadline eligibility.runner.id)
      past := by
  unfold claim
  rw [Program.asks_bind]
  refine ⟨⟨.of_untimed hpast (by simp) rfl, fun strategy ↦ trivial⟩, fun strategy ↦ ?_⟩
  have hstrategy : takenIn (past ++ [⟨.selection, strategy⟩]) = [] := takenIn_nothing hpast rfl
  change Program.Asks _ _ (claimFrom .. >>= _)
  rw [Program.asks_bind]
  refine ⟨claimFrom_asks strategy scope eligibility deadline hstrategy, ?_⟩
  apply (claimFrom_ensures strategy scope eligibility deadline hstrategy).imp
  intro past pass hpass
  rcases pass with (e | e) | result
  · change Program.Asks _ _ (ite _ _ _)
    split
    · rw [Program.asks_bind]
      refine ⟨claimFrom_asks .directScan scope eligibility deadline hpass, ?_⟩
      exact (claimFrom_ensures .directScan scope eligibility deadline hpass).imp
        fun past pass hpass ↦ trivial
    · trivial
  · trivial
  · trivial

theorem poll_of_paused (engine : Engine) {runner : Runner} (options : PollOptions)
    (h : runner.active = false) :
    engine.poll runner options = .done (.emptyPoll { Metrics.zero with paused := 1 }) := by
  unfold poll
  rw [h]
  rfl

/-- A poll of a runner that is active first reads the clock, which fixes the deadline of all that it
asks from then on. -/
theorem poll_of_active (engine : Engine) {runner : Runner} (options : PollOptions)
    (h : runner.active = true) :
    ∃ rest : Tick → Program (Report PollOutcome), engine.poll runner options = .ask .tick rest ∧
      ∀ start, (rest start).Asks
        (InTime (start + (options.timeout.getD engine.pollTimeout).nanos) runner.id)
        [⟨.tick, start⟩] := by
  unfold poll
  rw [h]
  refine ⟨_, rfl, fun start ↦ ?_⟩
  have hstart : takenIn [⟨.tick, start⟩] = [] := rfl
  change Program.Asks _ _ (engine.cutoff _ >>= _)
  rw [Program.asks_bind]
  constructor
  · apply (engine.cutoff_asks options.queuedBefore hstart).imp
    rintro past q ⟨hpast, rfl⟩
    exact .of_untimed hpast (by simp) rfl
  apply (engine.cutoff_ensures options.queuedBefore hstart).imp
  intro past cutoff hcutoff
  rw [Program.asks_bind]
  constructor
  · apply (runner.scope.resolve_asks _ hcutoff).imp
    rintro past q ⟨hpast, hq⟩
    exact .of_deadline hpast hq.deadline?_eq
  apply (runner.scope.resolve_ensures _ hcutoff).imp
  intro past resolution hresolution
  cases resolution with
  | failed e => trivial
  | timedOut => trivial
  | scope scope =>
    change Program.Asks _ _ (ite _ _ _)
    split
    · trivial
    · exact engine.claim_asks scope ⟨runner, cutoff⟩ _ hresolution

/-! ## What follows for every run -/

/-- A run of a poll asks for nothing, or first reads the clock and is in time at every request. -/
theorem poll_transcript {σ : Type} (handle : Handler σ) (s : σ) (engine : Engine)
    (runner : Runner) (options : PollOptions) :
    (engine.poll runner options).transcript handle s = [] ∨
      ∃ start rest, (engine.poll runner options).transcript handle s = ⟨.tick, start⟩ :: rest ∧
        ∀ before x after, ⟨.tick, start⟩ :: rest = before ++ x :: after →
          InTime (start + (options.timeout.getD engine.pollTimeout).nanos) runner.id
            before x.request := by
  cases hactive : runner.active with
  | false =>
    rw [engine.poll_of_paused options hactive]
    exact .inl rfl
  | true =>
    obtain ⟨rest, hpoll, hasks⟩ := engine.poll_of_active options hactive
    rw [hpoll]
    refine .inr ⟨_, _, rfl, fun before x after hsplit ↦ ?_⟩
    cases before with
    | nil =>
      obtain ⟨rfl, -⟩ := List.cons.inj hsplit
      exact .of_untimed rfl (by simp) rfl
    | cons first before =>
      obtain ⟨rfl, hrest⟩ := List.cons.inj hsplit
      exact (hasks _).of_run handle _ hrest

/-- A clock that never goes back is not read again before the tick of its first reading. -/
theorem le_of_tick_mem {start now : Tick} {rest : List Exchange}
    (hclock : ((⟨.tick, start⟩ :: rest).filterMap Exchange.tick?).Pairwise (· ≤ ·))
    (hnow : Exchange.mk .tick now ∈ ⟨.tick, start⟩ :: rest) : start ≤ now := by
  have hread : now ∈ (Exchange.mk .tick start :: rest).filterMap Exchange.tick? :=
    List.mem_filterMap.2 ⟨Exchange.mk .tick now, hnow, rfl⟩
  have hreadings : (Exchange.mk .tick start :: rest).filterMap Exchange.tick? =
      start :: rest.filterMap Exchange.tick? := rfl
  rw [hreadings] at hread hclock
  rcases List.mem_cons.1 hread with rfl | hread
  · exact Nat.le_refl _
  · exact (List.pairwise_cons.1 hclock).1 now hread

/-- At every run of a poll, whatever it is replied, at most one claim is given anything. The poll
hands out just what that claim was given, and asks for nothing after it. It first reads the clock;
all it asks shares the deadline that follows from this reading, and every claim comes right after a
reading before that deadline. With no time to wait it makes no claim, as clocks never go back. -/
theorem poll_claims_once_in_time {σ : Type} (handle : Handler σ) (s : σ) (engine : Engine)
    (runner : Runner) (options : PollOptions) :
    let past := (engine.poll runner options).transcript handle s
    let result := ((engine.poll runner options).run handle s).1.result
    let timeout := (options.timeout.getD engine.pollTimeout).nanos
    (takenIn past).length ≤ 1 ∧
    (∀ a, a ∈ takenIn past ↔ result = .ok (.assigned a)) ∧
    (∀ a, result = .ok (.assigned a) →
      ∃ before job, past = before ++ [⟨.claim job runner.id, .ok (some a)⟩]) ∧
    (past = [] ∨ ∃ start rest, past = ⟨.tick, start⟩ :: rest ∧
      (∀ x ∈ past, ∀ d, x.request.deadline? = some d → d = some (start + timeout)) ∧
      ∀ before job claimant reply after,
        past = before ++ ⟨.claim job claimant, reply⟩ :: after →
          claimant = runner.id ∧
          ∃ earlier now, before = earlier ++ [⟨.tick, now⟩] ∧ now < start + timeout) ∧
    (timeout = 0 → (past.filterMap Exchange.tick?).Pairwise (· ≤ ·) →
      ∀ x ∈ past, ∀ job claimant, x.request ≠ .claim job claimant) := by
  intro past result timeout
  have htaken : takenIn past = ((engine.poll runner options).run handle s).1.assignments :=
    (engine.poll_ensures runner options).of_run handle s
  have hmem (a : Assignment) : a ∈ takenIn past ↔ result = .ok (.assigned a) := by
    rw [htaken, Report.mem_assignments]
  refine ⟨?_, hmem, ?_⟩
  · rw [htaken]
    exact Report.length_assignments_le_one _
  obtain hnothing | ⟨start, rest, hpast, hintime⟩ :=
    poll_transcript handle s engine runner options
  · change past = [] at hnothing
    have hnone (a : Assignment) : result ≠ .ok (.assigned a) := by
      rw [ne_eq, ← hmem, hnothing]
      exact List.not_mem_nil
    refine ⟨fun a ha ↦ absurd ha (hnone a), .inl hnothing, ?_⟩
    rw [hnothing]
    intro _ _ x hx
    exact absurd hx List.not_mem_nil
  · change past = ⟨.tick, start⟩ :: rest at hpast
    rw [← hpast] at hintime
    have hclaim : ∀ before job claimant reply after,
        past = before ++ ⟨.claim job claimant, reply⟩ :: after →
          claimant = runner.id ∧
          ∃ earlier now, before = earlier ++ [⟨.tick, now⟩] ∧ now < start + timeout :=
      fun before job claimant reply after hsplit ↦
        (hintime before _ after hsplit).claim job claimant rfl
    refine ⟨?_, .inr ⟨start, rest, hpast, ?_, hclaim⟩, ?_⟩
    · intro a ha
      have hnothing : ∀ before x after, past = before ++ x :: after → takenIn before = [] :=
        fun before x after hsplit ↦ (hintime before x after hsplit).nothing_taken
      obtain ⟨before, job, claimant, hlast⟩ := exists_last_claim hnothing ((hmem a).2 ha)
      obtain ⟨rfl, -⟩ := hclaim before job claimant _ [] hlast
      exact ⟨before, job, hlast⟩
    · intro x hx d hd
      obtain ⟨before, after, hsplit⟩ := List.append_of_mem hx
      exact (hintime before x after hsplit).deadline_eq d hd
    · rintro hzero hclock ⟨q, reply⟩ hx job claimant rfl
      obtain ⟨before, after, hsplit⟩ := List.append_of_mem hx
      obtain ⟨-, earlier, now, hbefore, hnow⟩ := hclaim before job claimant reply after hsplit
      have hread : Exchange.mk .tick now ∈ past := by simp [hsplit, hbefore]
      rw [hpast] at hread hclock
      have hle : start ≤ now := le_of_tick_mem hclock hread
      rw [hzero, Nat.add_zero] at hnow
      exact absurd hle (Nat.not_le_of_lt hnow)

/-- One pending build while the projection is out of reach. -/
def outage : List StoreOperation :=
  [.putProject (.opened ⟨10⟩ ⟨1⟩), .enqueue ⟨⟨10⟩, .empty, false, default⟩,
    .setProjectionAvailable false]

/-- A poll that fails over claims right after its second reading of the clock; with no time to wait
it claims nothing. -/
theorem poll_claims_once_in_time_outage :
    let s := Store.after outage
    let handle := Store.handle ⟨5, default⟩ .projection
    let engine : Engine := ⟨true, .ofSeconds 1, .zero⟩
    let runner : Runner := ⟨⟨7⟩, .everything, .empty, true, true, true⟩
    let past (timeout : Option Duration) :=
      (engine.poll runner ⟨timeout, some default⟩).transcript handle s
    (∃ a before job, ((engine.poll runner ⟨none, some default⟩).run handle s).1.result =
        .ok (.assigned a) ∧
      past none = before ++ [⟨.claim job runner.id, .ok (some a)⟩]) ∧
    Duration.zero.nanos = 0 ∧
    ((past (some .zero)).filterMap Exchange.tick?).Pairwise (· ≤ ·) ∧
    ∀ x ∈ past (some .zero), ∀ job claimant, x.request ≠ .claim job claimant := by
  intro s handle engine runner past
  obtain ⟨-, -, hlast, -, -⟩ :=
    poll_claims_once_in_time handle s engine runner ⟨none, some default⟩
  obtain ⟨-, -, -, -, hzero⟩ :=
    poll_claims_once_in_time handle s engine runner ⟨some .zero, some default⟩
  have hresult : ((engine.poll runner ⟨none, some default⟩).run handle s).1.result =
      .ok (.assigned ⟨⟨1⟩, ⟨7⟩, default⟩) := by decide +kernel
  have hclock : ((past (some .zero)).filterMap Exchange.tick?).Pairwise (· ≤ ·) := by
    decide +kernel
  obtain ⟨before, job, hpast⟩ := hlast _ hresult
  exact ⟨⟨_, before, job, hresult, hpast⟩, rfl, hclock, hzero rfl hclock⟩

end Engine

end BuildQueue
