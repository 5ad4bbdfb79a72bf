import BuildQueue.Proofs.Engine.Calls

/-!
# The passes of a poll

A pass walks through the snapshot of a strategy. On its way every build is claimed and lost, every
wait comes to its end and every statement is answered; it stops where one of this does not happen,
where the snapshot ends, or at an error. A poll of an active runner finds its cutoff and its scope
and then makes no pass, one pass or, after one that could not be read, two.
-/

namespace BuildQueue

/-! ## Completed programs -/

namespace Program

variable {α β σ : Type} {made : List Exchange}

/-- With these replies to its requests the program comes to this result. -/
inductive Completes : Program α → List Exchange → α → Prop
  | done (a : α) : Completes (.done a) [] a
  | ask {q : Request} {next : Reply q → Program α} {reply : Reply q} {rest : List Exchange} {a : α}
    (h : Completes (next reply) rest a) : Completes (.ask q next) (⟨q, reply⟩ :: rest) a

theorem completes_run (handle : Handler σ) (p : Program α) (s : σ) :
    p.Completes (p.transcript handle s) (p.run handle s).1 := by
  induction p generalizing s with
  | done a => exact .done a
  | ask q next ih => exact .ask (ih _ _)

theorem completes_done {a b : α} : (Program.done a).Completes made b ↔ made = [] ∧ b = a := by
  constructor
  · intro h
    cases h with
    | done => exact ⟨rfl, rfl⟩
  · rintro ⟨rfl, rfl⟩
    exact .done _

theorem completes_ask {q : Request} {next : Reply q → Program α} {a : α} :
    (Program.ask q next).Completes made a ↔
      ∃ reply rest, made = ⟨q, reply⟩ :: rest ∧ (next reply).Completes rest a := by
  constructor
  · intro h
    cases h with
    | ask h => exact ⟨_, _, rfl, h⟩
  · rintro ⟨reply, rest, rfl, h⟩
    exact .ask h

/-- A program and its continuation complete one after the other. -/
theorem completes_bind {p : Program α} {f : α → Program β} {b : β} :
    (p >>= f).Completes made b ↔
      ∃ first a rest, made = first ++ rest ∧ p.Completes first a ∧ (f a).Completes rest b := by
  change (p.bind f).Completes made b ↔ _
  induction p generalizing made with
  | done a =>
    constructor
    · intro h
      exact ⟨[], a, made, rfl, .done a, h⟩
    · rintro ⟨first, a', rest, rfl, hfirst, hrest⟩
      obtain ⟨rfl, rfl⟩ := completes_done.1 hfirst
      exact hrest
  | ask q next ih =>
    constructor
    · intro h
      obtain ⟨reply, later, rfl, hlater⟩ := completes_ask.1 h
      obtain ⟨first, a, rest, rfl, hfirst, hrest⟩ := (ih reply).1 hlater
      exact ⟨⟨q, reply⟩ :: first, a, rest, rfl, .ask hfirst, hrest⟩
    · rintro ⟨first, a, rest, rfl, hfirst, hrest⟩
      obtain ⟨reply, later, rfl, hlater⟩ := completes_ask.1 hfirst
      exact .ask ((ih reply).2 ⟨later, a, rest, rfl, hlater, hrest⟩)

namespace Completes

variable {p : Program α} {a b : α}

/-- The replies decide the result. -/
theorem unique (ha : p.Completes made a) (hb : p.Completes made b) : a = b := by
  induction ha with
  | done a => exact (completes_done.1 hb).2.symm
  | ask h ih =>
    obtain ⟨reply, rest, heq, hrest⟩ := completes_ask.1 hb
    obtain ⟨hfirst, rfl⟩ := List.cons.inj heq
    cases hfirst
    exact ih hrest

/-- Whatever is asked is something that may be asked. -/
theorem forall_may {may : Request → Prop} {past : List Exchange} (h : p.Completes made a)
    (hasks : p.Asks (fun _ q ↦ may q) past) : ∀ x ∈ made, may x.request := by
  induction h generalizing past with
  | done a => simp
  | ask h ih =>
    intro x hx
    rcases List.mem_cons.1 hx with rfl | hx
    · exact hasks.1
    · exact ih (hasks.2 _) x hx

end Completes

end Program

/-! ## Walking through a feed -/

section Walking

variable {runner : RunnerId} {deadline : Tick}

/-- With these exchanges a pass has come from one feed to what is left of it. -/
inductive Feed.Walk (runner : RunnerId) (deadline : Tick) : Feed → List Exchange → Feed → Prop
  | here (feed : Feed) : Walk runner deadline feed [] feed
  | lost {build : QueuedBuild} {rest left : Feed} {made : List Exchange} {now : Tick}
    (hnow : now < deadline) (h : Walk runner deadline rest made left) :
    Walk runner deadline (.item (.ok build) rest)
      (⟨.tick, now⟩ :: ⟨.claim build.jobId runner, .ok none⟩ :: made) left
  | waited {nanos : Nat} {rest left : Feed} {made : List Exchange}
    (h : Walk runner deadline rest made left) :
    Walk runner deadline (.wait nanos rest)
      (⟨.wait (some nanos) (some deadline), true⟩ :: made) left
  | answered {s : Postgres.Statement} {next : Postgres.Answer → Feed} {answer : Postgres.Answer}
    {left : Feed} {made : List Exchange} (h : Walk runner deadline (next answer) made left) :
    Walk runner deadline (.statement s next) (⟨.statement s (some deadline), some answer⟩ :: made)
      left

/-- How a pass that has lost so many builds stops at what is left of its feed. -/
inductive Feed.Stops (runner : RunnerId) (deadline : Tick) (skipped : Nat) :
    Feed → List Exchange → ClaimPass → Prop
  | exhausted : Stops runner deadline skipped .done [] (.ok (.exhausted skipped))
  | unreadable (e : QueueError) (rest : Feed) :
    Stops runner deadline skipped (.item (.error e) rest) [] (.error (.snapshot e))
  | late (build : QueuedBuild) (rest : Feed) {now : Tick} (hnow : deadline ≤ now) :
    Stops runner deadline skipped (.item (.ok build) rest) [⟨.tick, now⟩] (.ok (.timedOut skipped))
  | refused (build : QueuedBuild) (rest : Feed) {now : Tick} (hnow : now < deadline)
    (e : QueueError) :
    Stops runner deadline skipped (.item (.ok build) rest)
      [⟨.tick, now⟩, ⟨.claim build.jobId runner, .error e⟩] (.error (.claim e))
  | taken (build : QueuedBuild) (rest : Feed) {now : Tick} (hnow : now < deadline)
    (a : Assignment) :
    Stops runner deadline skipped (.item (.ok build) rest)
      [⟨.tick, now⟩, ⟨.claim build.jobId runner, .ok (some a)⟩] (.ok (.assigned a skipped))
  | cutOff (nanos : Nat) (rest : Feed) :
    Stops runner deadline skipped (.wait nanos rest)
      [⟨.wait (some nanos) (some deadline), false⟩] (.ok (.timedOut skipped))
  | stalled (reply : Bool) :
    Stops runner deadline skipped .stall [⟨.wait none (some deadline), reply⟩]
      (.ok (.timedOut skipped))
  | unanswered (s : Postgres.Statement) (next : Postgres.Answer → Feed) :
    Stops runner deadline skipped (.statement s next) [⟨.statement s (some deadline), none⟩]
      (.ok (.timedOut skipped))

namespace Feed

theorem lostIn_lost (now : Tick) (job : JobId) (made : List Exchange) :
    lostIn (⟨.tick, now⟩ :: ⟨.claim job runner, .ok none⟩ :: made) = lostIn made + 1 := by
  unfold lostIn
  rw [List.countP_cons_of_neg (by simp [Exchange.isLost]), List.countP_cons_of_pos rfl]

variable {feed left : Feed} {made last : List Exchange} {skipped : Nat} {pass : ClaimPass}

theorem Stops.completes (h : left.Stops runner deadline skipped last pass) :
    (left.claimFirst runner deadline skipped).Completes last pass := by
  cases h with
  | exhausted => exact .done _
  | unreadable e rest => exact .done _
  | late build rest hnow =>
    refine .ask ?_
    rw [if_pos hnow]
    exact .done _
  | refused build rest hnow e =>
    refine .ask ?_
    rw [if_neg (Nat.not_le_of_lt hnow)]
    exact .ask (.done _)
  | taken build rest hnow a =>
    refine .ask ?_
    rw [if_neg (Nat.not_le_of_lt hnow)]
    exact .ask (.done _)
  | cutOff nanos rest => exact .ask (.done _)
  | stalled reply => exact .ask (.done _)
  | unanswered s next =>
    unfold claimFirst
    exact .ask (.done _)

/-- A pass goes on from where it has come to, with the builds it has lost so far. -/
theorem Walk.completes (h : feed.Walk runner deadline made left)
    (hlast : (left.claimFirst runner deadline (skipped + lostIn made)).Completes last pass) :
    (feed.claimFirst runner deadline skipped).Completes (made ++ last) pass := by
  induction h generalizing skipped with
  | here feed => exact hlast
  | @lost build rest left made now hnow h ih =>
    refine .ask ?_
    rw [if_neg (Nat.not_le_of_lt hnow)]
    rw [lostIn_lost, Nat.add_comm (lostIn made), ← Nat.add_assoc] at hlast
    exact .ask (ih hlast)
  | waited h ih => exact .ask (ih hlast)
  | answered h ih =>
    unfold claimFirst
    exact .ask (ih hlast)

/-- A pass walks some way and stops there. -/
theorem exists_walk (h : (feed.claimFirst runner deadline skipped).Completes made pass) :
    ∃ walked left last, made = walked ++ last ∧ feed.Walk runner deadline walked left ∧
      left.Stops runner deadline (skipped + lostIn walked) last pass := by
  induction feed generalizing made skipped with
  | done =>
    obtain ⟨rfl, rfl⟩ := Program.completes_done.1 h
    exact ⟨[], _, [], rfl, .here _, .exhausted⟩
  | item entry rest ih =>
    cases entry with
    | error e =>
      obtain ⟨rfl, rfl⟩ := Program.completes_done.1 h
      exact ⟨[], _, [], rfl, .here _, .unreadable e rest⟩
    | ok build =>
      obtain ⟨now, later, rfl, hnext⟩ := Program.completes_ask.1 h
      split at hnext
      next hlate =>
        obtain ⟨rfl, rfl⟩ := Program.completes_done.1 hnext
        exact ⟨[], _, [_], rfl, .here _, .late build rest hlate⟩
      next hearly =>
        have hnow : now < deadline := Nat.lt_of_not_le hearly
        obtain ⟨reply, later, rfl, hclaim⟩ := Program.completes_ask.1 hnext
        rcases reply with e | _ | a
        · obtain ⟨rfl, rfl⟩ := Program.completes_done.1 hclaim
          exact ⟨[], _, [_, _], rfl, .here _, .refused build rest hnow e⟩
        · obtain ⟨walked, left, last, rfl, hwalk, hstops⟩ := ih hclaim
          refine ⟨_ :: _ :: walked, left, last, rfl, .lost hnow hwalk, ?_⟩
          rw [lostIn_lost, Nat.add_comm (lostIn walked), ← Nat.add_assoc]
          exact hstops
        · obtain ⟨rfl, rfl⟩ := Program.completes_done.1 hclaim
          exact ⟨[], _, [_, _], rfl, .here _, .taken build rest hnow a⟩
  | wait nanos rest ih =>
    obtain ⟨reply, later, rfl, hnext⟩ := Program.completes_ask.1 h
    cases reply with
    | true =>
      obtain ⟨walked, left, last, rfl, hwalk, hstops⟩ := ih hnext
      exact ⟨_ :: walked, left, last, rfl, .waited hwalk, hstops⟩
    | false =>
      obtain ⟨rfl, rfl⟩ := Program.completes_done.1 hnext
      exact ⟨[], _, [_], rfl, .here _, .cutOff nanos rest⟩
  | stall =>
    obtain ⟨reply, later, rfl, hnext⟩ := Program.completes_ask.1 h
    obtain ⟨rfl, rfl⟩ := Program.completes_done.1 hnext
    exact ⟨[], _, [_], rfl, .here _, .stalled reply⟩
  | statement s next ih =>
    unfold claimFirst at h
    obtain ⟨reply, later, rfl, hnext⟩ := Program.completes_ask.1 h
    cases reply with
    | some answer =>
      obtain ⟨walked, left, last, rfl, hwalk, hstops⟩ := ih answer hnext
      exact ⟨_ :: walked, left, last, rfl, .answered hwalk, hstops⟩
    | none =>
      obtain ⟨rfl, rfl⟩ := Program.completes_done.1 hnext
      exact ⟨[], _, [_], rfl, .here _, .unanswered s next⟩

end Feed

/-! ## Failures of a pass -/

/-- A walk claims what it lost, and every one of its claims is given nothing. -/
theorem Feed.Walk.claim_lost {feed left : Feed} {made : List Exchange}
    (h : feed.Walk runner deadline made left) {job : JobId} {claimant : RunnerId}
    {reply : Reply (.claim job claimant)} (hclaim : ⟨.claim job claimant, reply⟩ ∈ made) :
    reply = .ok none := by
  induction h with
  | here feed => simp at hclaim
  | lost hnow h ih =>
    have hcases := List.mem_cons.1 ((List.mem_cons.1 hclaim).resolve_left (by simp))
    rcases hcases with heq | hclaim
    · cases heq
      rfl
    · exact ih hclaim
  | waited h ih => exact ih (by simpa using hclaim)
  | answered h ih => exact ih (by simpa using hclaim)

/-- Only a claim that was refused is answered with an error. -/
theorem Feed.Stops.claim_refused {left : Feed} {last : List Exchange} {skipped : Nat}
    {pass : ClaimPass} (h : left.Stops runner deadline skipped last pass) {job : JobId}
    {claimant : RunnerId} {e : QueueError} (hclaim : ⟨.claim job claimant, .error e⟩ ∈ last) :
    ∃ now, last = [⟨.tick, now⟩, ⟨.claim job claimant, .error e⟩] ∧ pass = .error (.claim e) := by
  cases h with
  | refused build rest hnow refusal =>
    obtain ⟨⟨rfl, rfl⟩, rfl⟩ : (job = build.jobId ∧ claimant = runner) ∧ e = refusal := by
      simpa using hclaim
    exact ⟨_, rfl, rfl⟩
  | _ => simp at hclaim

theorem exists_split_of_notMem {front rest before after : List Exchange} {x : Exchange}
    (hsplit : front ++ rest = before ++ x :: after) (hx : x ∉ front) :
    ∃ between, rest = between ++ x :: after := by
  rcases List.append_eq_append_iff.1 hsplit with ⟨between, -, hrest⟩ | ⟨between, hfront, hrest⟩
  · exact ⟨between, hrest⟩
  · rcases List.cons_eq_append_iff.1 hrest with ⟨-, hrest⟩ | ⟨later, rfl, -⟩
    · exact ⟨[], hrest⟩
    · exact absurd (by simp [hfront]) hx

/-- What a pass reads, what it was given and asked then, and what it came to. -/
structure Pass where
  strategy : StrategyKind
  snapshot : Feed
  made : List Exchange
  result : ClaimPass

namespace Pass

def exchanges (scope : ProjectScope) (cutoff : Instant) (p : Pass) : List Exchange :=
  ⟨.fetch p.strategy scope cutoff, p.snapshot⟩ :: p.made

/-- The pass goes through its snapshot, and with the replies it got it comes to its result. -/
def Runs (eligibility : Eligibility) (deadline : Tick) (p : Pass) : Prop :=
  ((eligibility.applyFeed p.snapshot).claimFirst eligibility.runner.id deadline 0).Completes
    p.made p.result

/-- The pass lost every build on its way to an error in its snapshot. -/
def FailsReading (eligibility : Eligibility) (deadline : Tick) (p : Pass) (e : QueueError) : Prop :=
  ∃ rest, (eligibility.applyFeed p.snapshot).Walk eligibility.runner.id deadline p.made
    (.item (.error e) rest)

/-- The last thing the pass asked for was a claim, and the answer an error. -/
def FailsClaiming (p : Pass) (e : QueueError) : Prop :=
  ∃ earlier job claimant, p.made = earlier ++ [⟨.claim job claimant, .error e⟩]

variable {eligibility : Eligibility} {p : Pass} {e : QueueError}

theorem Runs.failsReading_iff (h : p.Runs eligibility deadline) :
    p.FailsReading eligibility deadline e ↔ p.result = .error (.snapshot e) := by
  constructor
  · rintro ⟨rest, hwalk⟩
    have hstop : ((eligibility.applyFeed p.snapshot).claimFirst eligibility.runner.id deadline
        0).Completes (p.made ++ []) (.error (.snapshot e)) := hwalk.completes (.done _)
    rw [List.append_nil] at hstop
    exact h.unique hstop
  · intro hresult
    obtain ⟨walked, left, last, hmade, hwalk, hstops⟩ := Feed.exists_walk h
    rw [hresult] at hstops
    cases hstops with
    | unreadable e rest =>
      rw [List.append_nil] at hmade
      exact ⟨rest, hmade ▸ hwalk⟩

/-- A claim that is answered with an error ends the pass. -/
theorem Runs.claim_refused (h : p.Runs eligibility deadline) {before after : List Exchange}
    {job : JobId} {claimant : RunnerId}
    (hsplit : p.made = before ++ ⟨.claim job claimant, .error e⟩ :: after) :
    after = [] ∧ p.result = .error (.claim e) := by
  obtain ⟨walked, left, last, hmade, hwalk, hstops⟩ := Feed.exists_walk h
  rw [hmade] at hsplit
  obtain ⟨between, hbetween⟩ :=
    exists_split_of_notMem hsplit fun hmem ↦ absurd (hwalk.claim_lost hmem) (by simp)
  have hmem : Exchange.mk (.claim job claimant) (.error e) ∈ last := by simp [hbetween]
  obtain ⟨now, hpair, hresult⟩ := hstops.claim_refused hmem
  refine ⟨?_, hresult⟩
  rw [hpair] at hbetween
  rcases between with _ | ⟨x, _ | ⟨y, between⟩⟩
  · simp at hbetween
  · exact (List.cons.inj (List.cons.inj hbetween).2).2.symm
  · simp at hbetween

theorem Runs.failsClaiming_iff (h : p.Runs eligibility deadline) :
    p.FailsClaiming e ↔ p.result = .error (.claim e) := by
  constructor
  · rintro ⟨earlier, job, claimant, hmade⟩
    exact (h.claim_refused hmade).2
  · intro hresult
    obtain ⟨walked, left, last, hmade, -, hstops⟩ := Feed.exists_walk h
    rw [hresult] at hstops
    cases hstops with
    | refused build rest hnow e =>
      exact ⟨walked ++ [⟨.tick, _⟩], build.jobId, eligibility.runner.id, by simpa using hmade⟩

end Pass

/-! ## What a pass loses, and whether it is late -/

/-- What comes only at the deadline, or not before it. -/
def Exchange.isLate (deadline : Tick) : Exchange → Bool
  | ⟨.tick, now⟩ => deadline ≤ now
  | ⟨.wait nanos _, came⟩ => nanos.isNone || !came
  | ⟨.statement .., answer⟩ => answer.isNone
  | _ => false

def ClaimPass.isTimedOut : ClaimPass → Bool
  | .ok (.timedOut _) => true
  | _ => false

/-- The number of builds that were lost before a pass ended. -/
def ClaimResult.skipped : ClaimResult → Nat
  | .assigned _ skipped => skipped
  | .exhausted skipped => skipped
  | .timedOut skipped => skipped

/-- A walk is in time. -/
theorem Feed.Walk.isLate {feed left : Feed} {made : List Exchange}
    (h : feed.Walk runner deadline made left) : made.any (·.isLate deadline) = false := by
  induction h with
  | here feed => rfl
  | lost hnow h ih => simpa [Exchange.isLate, hnow] using ih
  | waited h ih => simpa [Exchange.isLate] using ih
  | answered h ih => simpa [Exchange.isLate] using ih

/-- A pass times out just if something is late where it stops. -/
theorem Feed.Stops.isLate {left : Feed} {last : List Exchange} {skipped : Nat} {pass : ClaimPass}
    (h : left.Stops runner deadline skipped last pass) :
    last.any (·.isLate deadline) = pass.isTimedOut := by
  cases h with
  | late build rest hnow => simpa [Exchange.isLate, ClaimPass.isTimedOut] using hnow
  | refused build rest hnow e => simpa [Exchange.isLate, ClaimPass.isTimedOut] using hnow
  | taken build rest hnow a => simpa [Exchange.isLate, ClaimPass.isTimedOut] using hnow
  | _ => rfl

/-- Where a pass stops without an error, it loses no more. -/
theorem Feed.Stops.skipped {left : Feed} {last : List Exchange} {skipped : Nat}
    {result : ClaimResult} (h : left.Stops runner deadline skipped last (.ok result)) :
    lostIn last = 0 ∧ result.skipped = skipped := by
  cases h <;> exact ⟨rfl, rfl⟩

namespace Pass.Runs

variable {eligibility : Eligibility} {p : Pass}

theorem isLate (h : p.Runs eligibility deadline) :
    p.made.any (·.isLate deadline) = p.result.isTimedOut := by
  obtain ⟨walked, left, last, hmade, hwalk, hstops⟩ := Feed.exists_walk h
  rw [hmade, List.any_append, hwalk.isLate, hstops.isLate, Bool.false_or]

/-- A pass that does not fail knows of all that it lost. -/
theorem skipped (h : p.Runs eligibility deadline) {result : ClaimResult}
    (hresult : p.result = .ok result) : result.skipped = lostIn p.made := by
  obtain ⟨walked, left, last, hmade, -, hstops⟩ := Feed.exists_walk h
  rw [hresult] at hstops
  obtain ⟨hlast, hskipped⟩ := hstops.skipped
  have hlost : lostIn p.made = lostIn walked + lostIn last := by
    rw [hmade]
    exact List.countP_append
  omega

end Pass.Runs

/-! ## What a pass asks -/

/-- A request that a pass makes after it has fetched its snapshot. -/
def Request.isPassing : Request → Bool
  | .tick | .wait .. | .statement .. | .claim .. => true
  | _ => false

theorem Feed.claimFirst_isPassing (feed : Feed) (skipped : Nat) (past : List Exchange) :
    (feed.claimFirst runner deadline skipped).Asks (fun _ q ↦ q.isPassing = true) past := by
  induction feed generalizing skipped past with
  | done => trivial
  | item entry rest ih =>
    cases entry with
    | error e => trivial
    | ok build =>
      refine ⟨rfl, fun now ↦ ?_⟩
      change Program.Asks _ _ (ite _ _ _)
      split
      · trivial
      · refine ⟨rfl, fun reply ↦ ?_⟩
        rcases reply with e | _ | a
        · trivial
        · exact ih (skipped + 1) _
        · trivial
  | wait nanos rest ih =>
    refine ⟨rfl, fun reply ↦ ?_⟩
    cases reply with
    | true => exact ih skipped _
    | false => trivial
  | stall => exact ⟨rfl, fun reply ↦ trivial⟩
  | statement s next ih =>
    unfold claimFirst
    refine ⟨rfl, fun reply ↦ ?_⟩
    cases reply with
    | some answer => exact ih answer skipped _
    | none => trivial

theorem Pass.Runs.isPassing {eligibility : Eligibility} {p : Pass}
    (h : p.Runs eligibility deadline) : ∀ x ∈ p.made, x.request.isPassing = true :=
  Program.Completes.forall_may h (Feed.claimFirst_isPassing _ 0 [])

theorem Pass.Runs.isFetch {eligibility : Eligibility} {p : Pass}
    (h : p.Runs eligibility deadline) : ∀ x ∈ p.made, x.isFetch = false := by
  intro x hx
  have hpassing := h.isPassing x hx
  obtain ⟨q, reply⟩ := x
  cases q <;> simp_all [Request.isPassing, Exchange.isFetch]

theorem Pass.Runs.readsQueue {eligibility : Eligibility} {p : Pass}
    (h : p.Runs eligibility deadline) : ∀ x ∈ p.made, x.request.readsQueue = false := by
  intro x hx
  have hpassing := h.isPassing x hx
  obtain ⟨q, reply⟩ := x
  cases q <;> simp_all [Request.isPassing, Request.readsQueue]

/-- What comes last is the last pass. -/
theorem Pass.Runs.lastPass {eligibility : Eligibility} {p : Pass} (h : p.Runs eligibility deadline)
    (front : List Exchange) (scope : ProjectScope) (cutoff : Instant) :
    lastPass (front ++ p.exchanges scope cutoff) = p.made ∧
      beforeLastPass (front ++ p.exchanges scope cutoff) =
        front ++ [⟨.fetch p.strategy scope cutoff, p.snapshot⟩] :=
  lastPass_of_fetch front rfl h.isFetch

/-! ## The passes of a poll -/

/-- A poll makes one pass, or two where the first could not be read and failover replaces its
strategy. -/
inductive Engine.Makes (engine : Engine) (eligibility : Eligibility) (deadline : Tick) :
    List Pass → Report PollOutcome → Prop
  | one {p : Pass} (hruns : p.Runs eligibility deadline)
    (hstays : ∀ e, p.FailsReading eligibility deadline e → engine.canFailOver p.strategy = false) :
    Makes engine eligibility deadline [p] (p.result.report 0)
  | two {first second : Pass} {e : QueueError} (hfirst : first.Runs eligibility deadline)
    (hfails : first.FailsReading eligibility deadline e)
    (hover : engine.canFailOver first.strategy = true)
    (hsecond : second.Runs eligibility deadline) (hscan : second.strategy = .directScan) :
    Makes engine eligibility deadline [first, second] (second.result.report 1)

theorem claimFrom_completes {strategy : StrategyKind} {scope : ProjectScope}
    {eligibility : Eligibility} {made : List Exchange} {result : ClaimPass}
    (h : (claimFrom strategy scope eligibility deadline).Completes made result) :
    ∃ p : Pass, p.strategy = strategy ∧ p.result = result ∧ p.Runs eligibility deadline ∧
      made = p.exchanges scope eligibility.cutoff := by
  obtain ⟨snapshot, rest, rfl, hrest⟩ := Program.completes_ask.1 h
  exact ⟨⟨strategy, snapshot, rest, result⟩, rfl, rfl, hrest, rfl⟩

theorem Engine.Makes.runs {engine : Engine} {eligibility : Eligibility} {passes : List Pass}
    {report : Report PollOutcome} (h : engine.Makes eligibility deadline passes report) :
    ∀ p ∈ passes, p.Runs eligibility deadline := by
  cases h with
  | one hruns hstays => simpa using hruns
  | two hfirst hfails hover hsecond hscan => simpa using ⟨hfirst, hsecond⟩

/-- The passes over a scope follow one reading of the selection, and all read the same scope. -/
theorem Engine.claim_completes {engine : Engine} {scope : ProjectScope} {eligibility : Eligibility}
    {made : List Exchange} {report : Report PollOutcome}
    (h : (engine.claim scope eligibility deadline).Completes made report) :
    ∃ passes, engine.Makes eligibility deadline passes report ∧
      made = passes.head?.toList.map (fun p ↦ ⟨.selection, p.strategy⟩) ++
        passes.flatMap (Pass.exchanges scope eligibility.cutoff) := by
  obtain ⟨strategy, later, rfl, hlater⟩ := Program.completes_ask.1 h
  change (claimFrom .. >>= _).Completes later report at hlater
  obtain ⟨made, result, rest, rfl, hpass, hrest⟩ := Program.completes_bind.1 hlater
  obtain ⟨first, rfl, rfl, hfirst, rfl⟩ := claimFrom_completes hpass
  -- Without a failover the poll comes to what its only pass came to.
  have hone (hend : rest = [] ∧ report = first.result.report 0)
      (hstays : ∀ e, first.FailsReading eligibility deadline e →
        engine.canFailOver first.strategy = false) :
      ∃ passes, engine.Makes eligibility deadline passes report ∧
        ⟨.selection, first.strategy⟩ :: (first.exchanges scope eligibility.cutoff ++ rest) =
          passes.head?.toList.map (fun p ↦ ⟨.selection, p.strategy⟩) ++
            passes.flatMap (Pass.exchanges scope eligibility.cutoff) := by
    obtain ⟨rfl, rfl⟩ := hend
    exact ⟨[first], .one hfirst hstays, by simp⟩
  rcases hresult : first.result with (e | e) | result
  · have hfails := hfirst.failsReading_iff.2 hresult
    rw [hresult] at hrest
    by_cases hover : engine.canFailOver first.strategy = true
    · simp only [if_pos hover] at hrest
      obtain ⟨made, result, rest, rfl, hpass, hend⟩ := Program.completes_bind.1 hrest
      obtain ⟨second, hscan, rfl, hsecond, rfl⟩ := claimFrom_completes hpass
      obtain ⟨rfl, rfl⟩ := Program.completes_done.1 hend
      exact ⟨[first, second], .two hfirst hfails hover hsecond hscan, by simp⟩
    · simp only [if_neg hover] at hrest
      refine hone ?_ fun _ _ ↦ Bool.eq_false_iff.2 hover
      rw [hresult]
      exact Program.completes_done.1 hrest
  all_goals
    refine hone ?_ fun e hfails ↦ ?_
    · rw [hresult] at hrest ⊢
      exact Program.completes_done.1 hrest
    · rw [hfirst.failsReading_iff, hresult] at hfails
      simp at hfails

end Walking

end BuildQueue
