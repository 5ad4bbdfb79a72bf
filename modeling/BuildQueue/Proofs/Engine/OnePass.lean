import BuildQueue.Engine.Reading
import BuildQueue.Proofs.Engine.Retries

/-!
# One pass over any snapshot

Whatever a snapshot shows, a pass that is in time claims the builds it admits in their order and
stops at the first item that decides it: a build whose claim is not lost, an error of the snapshot,
or its end. Nothing that follows this item is asked for, so it may be anything.
-/

namespace BuildQueue

/-! ## What a feed shows -/

namespace Feed

/-- The items of a feed whose statements are given these answers. -/
def entries : Feed → List Postgres.Answer → List FeedEntry
  | .done, _ => []
  | .item entry rest, answers => entry :: rest.entries answers
  | .wait _ rest, answers => rest.entries answers
  | .stall, _ => []
  | .statement _ next, answer :: answers => (next answer).entries answers
  | .statement .., [] => []

/-- The feed with another one in place of what follows the item after the first `n` ones. -/
def cut : Feed → Nat → Feed → Feed
  | .done, _, _ => .done
  | .item entry _, 0, other => .item entry other
  | .item entry rest, n + 1, other => .item entry (rest.cut n other)
  | .wait nanos rest, n, other => .wait nanos (rest.cut n other)
  | .stall, _, _ => .stall
  | .statement s next, n, other => .statement s fun answer ↦ (next answer).cut n other

theorem entries_ofEntries (items : List FeedEntry) (answers : List Postgres.Answer) :
    (ofEntries items .done).entries answers = items := by
  induction items with
  | nil => rfl
  | cons item items ih => exact congrArg (List.cons item) ih

end Feed

/-- The claims of a transcript with their answers. -/
def callsIn (past : List Exchange) : List Exchange := past.filter fun x ↦ x.claimed?.isSome

/-- The claim of a build that was lost. -/
def QueuedBuild.lostBy (runner : RunnerId) (build : QueuedBuild) : Exchange :=
  ⟨.claim build.jobId runner, .ok none⟩

/-! ## The item that decides -/

/-- A pass that has lost so many builds comes to its end at the first one of these items, with at
most one more claim. -/
inductive Decides (admits : QueuedBuild → Bool) (runner : RunnerId) (skipped : Nat) :
    List FeedEntry → List Exchange → ClaimPass → Prop
  | assigned {build : QueuedBuild} (hbuild : admits build = true) (after : List FeedEntry)
    (a : Assignment) : Decides admits runner skipped (.ok build :: after)
      [⟨.claim build.jobId runner, .ok (some a)⟩] (.ok (.assigned a skipped))
  | refused {build : QueuedBuild} (hbuild : admits build = true) (after : List FeedEntry)
    (e : QueueError) : Decides admits runner skipped (.ok build :: after)
      [⟨.claim build.jobId runner, .error e⟩] (.error (.claim e))
  | unreadable (e : QueueError) (after : List FeedEntry) :
    Decides admits runner skipped (.error e :: after) [] (.error (.snapshot e))
  | exhausted : Decides admits runner skipped [] [] (.ok (.exhausted skipped))

/-- A pass goes over these builds, claims those it admits and loses them all, and is decided by the
next item. -/
structure Feed.PassesOver (admits : QueuedBuild → Bool) (runner : RunnerId) (deadline : Tick)
    (skipped : Nat) (feed : Feed) (made : List Exchange) (pass : ClaimPass)
    (before : List QueuedBuild) : Prop where
  decides : ∃ left last, feed.entries (answersIn made) = before.map .ok ++ left ∧
    callsIn made = (before.filter admits).map (·.lostBy runner) ++ last ∧
    Decides admits runner (skipped + (before.filter admits).length) left last pass
  completes : ∀ other, (((feed.cut before.length other).filter admits).claimFirst runner deadline
    skipped).Completes made pass

namespace Feed

variable {admits : QueuedBuild → Bool} {runner : RunnerId} {deadline now : Tick} {skipped : Nat}
  {feed rest : Feed} {made : List Exchange} {pass : ClaimPass} {build : QueuedBuild}
  {before : List QueuedBuild}

/-- The first item decides where a pass stops at it whatever follows. -/
theorem PassesOver.of_stops {entry : FeedEntry}
    (hkept : ∀ rest, (Feed.item entry rest).filter admits = .item entry (rest.filter admits))
    (hstops : ∀ rest, (Feed.item entry rest).Stops runner deadline skipped made pass)
    (hdecides : ∀ after, Decides admits runner skipped (entry :: after) (callsIn made) pass) :
    (Feed.item entry rest).PassesOver admits runner deadline skipped made pass [] := by
  refine ⟨⟨_, _, rfl, rfl, hdecides _⟩, fun other ↦ ?_⟩
  change (((Feed.item entry other).filter admits).claimFirst runner deadline skipped).Completes _ _
  rw [hkept]
  exact (hstops _).completes

/-- A build that is not admitted is passed over without a request. -/
theorem PassesOver.not_admitted
    (h : rest.PassesOver admits runner deadline skipped made pass before)
    (hbuild : ¬admits build = true) :
    (Feed.item (.ok build) rest).PassesOver admits runner deadline skipped made pass
      (build :: before) := by
  obtain ⟨left, last, hentries, hcalls, hdecides⟩ := h.decides
  rw [← List.filter_cons_of_neg hbuild] at hcalls hdecides
  refine ⟨⟨left, last, congrArg (List.cons (Except.ok build)) hentries, hcalls, hdecides⟩,
    fun other ↦ ?_⟩
  change (((Feed.item (.ok build) (rest.cut before.length other)).filter admits).claimFirst runner
    deadline skipped).Completes made pass
  rw [filter, if_neg hbuild]
  exact h.completes other

/-- A build that is admitted and lost counts as one more. -/
theorem PassesOver.lost
    (h : rest.PassesOver admits runner deadline (skipped + 1) made pass before)
    (hbuild : admits build = true) (hnow : now < deadline) :
    (Feed.item (.ok build) rest).PassesOver admits runner deadline skipped
      (⟨.tick, now⟩ :: build.lostBy runner :: made) pass (build :: before) := by
  obtain ⟨left, last, hentries, hcalls, hdecides⟩ := h.decides
  refine ⟨⟨left, last, congrArg (List.cons (Except.ok build)) hentries, ?_, ?_⟩, fun other ↦ ?_⟩
  · rw [List.filter_cons_of_pos hbuild]
    exact congrArg (List.cons (build.lostBy runner)) hcalls
  · rwa [List.filter_cons_of_pos hbuild, List.length_cons, Nat.add_comm _ 1, ← Nat.add_assoc]
  · change (((Feed.item (.ok build) (rest.cut before.length other)).filter admits).claimFirst runner
      deadline skipped).Completes _ pass
    rw [filter, if_pos hbuild]
    refine .ask ?_
    rw [if_neg (Nat.not_le_of_lt hnow)]
    exact .ask (h.completes other)

/-- A pass in time goes over builds up to the item that decides it. -/
theorem exists_passesOver
    (h : ((feed.filter admits).claimFirst runner deadline skipped).Completes made pass)
    (hintime : ∀ x ∈ made, x.isLate deadline = false) :
    ∃ before, feed.PassesOver admits runner deadline skipped made pass before := by
  -- Over the feed before it is filtered: what is not admitted counts among the builds passed over.
  induction feed generalizing skipped made with
  | done =>
    obtain ⟨rfl, rfl⟩ := Program.completes_done.1 h
    exact ⟨[], ⟨[], [], rfl, rfl, .exhausted⟩, fun other ↦ .done _⟩
  | item entry rest ih =>
    cases entry with
    | error e =>
      obtain ⟨rfl, rfl⟩ := Program.completes_done.1 h
      exact ⟨[], .of_stops (fun _ ↦ rfl) (.unreadable e) (.unreadable e)⟩
    | ok build =>
      by_cases hbuild : admits build = true
      · have hkept (rest : Feed) : (Feed.item (.ok build) rest).filter admits =
            .item (.ok build) (rest.filter admits) := by
          rw [filter, if_pos hbuild]
        rw [hkept] at h
        obtain ⟨now, later, rfl, hclaim⟩ := Program.completes_ask.1 h
        have hnow : now < deadline := by
          simpa [Exchange.isLate] using hintime _ List.mem_cons_self
        rw [if_neg (Nat.not_le_of_lt hnow)] at hclaim
        obtain ⟨reply, later, rfl, hnext⟩ := Program.completes_ask.1 hclaim
        rcases reply with e | _ | a
        · obtain ⟨rfl, rfl⟩ := Program.completes_done.1 hnext
          exact ⟨[], .of_stops hkept (fun rest ↦ .refused build rest hnow e)
            fun after ↦ .refused hbuild after e⟩
        · obtain ⟨before, hbefore⟩ := ih hnext fun x hx ↦ hintime x (by simp [hx])
          exact ⟨build :: before, hbefore.lost hbuild hnow⟩
        · obtain ⟨rfl, rfl⟩ := Program.completes_done.1 hnext
          exact ⟨[], .of_stops hkept (fun rest ↦ .taken build rest hnow a)
            fun after ↦ .assigned hbuild after a⟩
      · rw [filter, if_neg hbuild] at h
        obtain ⟨before, hbefore⟩ := ih h hintime
        exact ⟨build :: before, hbefore.not_admitted hbuild⟩
  | wait nanos rest ih =>
    obtain ⟨came, later, rfl, hnext⟩ := Program.completes_ask.1 h
    cases came with
    | true =>
      obtain ⟨before, hdecides, hcompletes⟩ := ih hnext fun x hx ↦ hintime x (by simp [hx])
      exact ⟨before, hdecides, fun other ↦ .ask (hcompletes other)⟩
    | false => exact absurd (hintime _ List.mem_cons_self) (by simp [Exchange.isLate])
  | stall =>
    obtain ⟨came, later, rfl, -⟩ := Program.completes_ask.1 h
    exact absurd (hintime _ List.mem_cons_self) (by simp [Exchange.isLate])
  | statement s next ih =>
    unfold filter claimFirst at h
    obtain ⟨answer, later, rfl, hnext⟩ := Program.completes_ask.1 h
    cases answer with
    | some answer =>
      obtain ⟨before, hdecides, hcompletes⟩ := ih answer hnext fun x hx ↦ hintime x (by simp [hx])
      refine ⟨before, hdecides, fun other ↦ ?_⟩
      unfold cut filter claimFirst
      exact .ask (hcompletes other)
    | none => exact absurd (hintime _ List.mem_cons_self) (by simp [Exchange.isLate])

end Feed

/-- A pass whose deadline is not reached goes over builds up to the one item that decides it. Of
these builds it claims those that it admits, one claim for each and in their order, and loses them
all. The deciding item is an admitted build whose claim is given something or answered with an
error, an error of the snapshot, or its end; the pass reports it with the number of builds it has
lost. What follows the item may be anything: the pass asks for none of it. -/
theorem claimFrom_first_decides {σ : Type} (handle : Handler σ) (s : σ) (strategy : StrategyKind)
    (scope : ProjectScope) (eligibility : Eligibility) (deadline : Tick)
    (hintime : ∀ x ∈ (claimFrom strategy scope eligibility deadline).transcript handle s,
      x.isLate deadline = false) :
    let pass := claimFrom strategy scope eligibility deadline
    let admits := eligibility.admits
    let runner := eligibility.runner.id
    ∃ (snapshot : Feed) (made : List Exchange) (before : List QueuedBuild) (left : List FeedEntry)
      (last : List Exchange),
      pass.transcript handle s = ⟨.fetch strategy scope eligibility.cutoff, snapshot⟩ :: made ∧
      snapshot.entries (answersIn made) = before.map .ok ++ left ∧
      callsIn made = (before.filter admits).map (·.lostBy runner) ++ last ∧
      Decides admits runner (before.filter admits).length left last (pass.run handle s).1 ∧
      (∀ other, ((eligibility.applyFeed (snapshot.cut before.length other)).claimFirst runner
        deadline 0).Completes made (pass.run handle s).1) ∧
      ∀ items, snapshot = Feed.ofEntries items .done → items = before.map .ok ++ left := by
  intro pass admits runner
  obtain ⟨snapshot, made, htranscript, hmade⟩ :=
    Program.completes_ask.1 (Program.completes_run handle pass s)
  change pass.transcript handle s = _ at htranscript
  rw [htranscript] at hintime
  obtain ⟨before, ⟨left, last, hentries, hcalls, hdecides⟩, hcompletes⟩ :=
    Feed.exists_passesOver hmade fun x hx ↦ hintime x (List.mem_cons_of_mem _ hx)
  rw [Nat.zero_add] at hdecides
  refine ⟨snapshot, made, before, left, last, htranscript, hentries, hcalls, hdecides, hcompletes,
    ?_⟩
  rintro items rfl
  rw [← hentries, Feed.entries_ofEntries]

/-- A direct scan that shows these items, in front of claims that hand out each build once and have
handed out some already. -/
def Bench.scripted (backoff : Duration) (time : Instant) (items : List ScriptItem)
    (handedOut : List JobId) : Bench :=
  { Bench.base
      { BenchParts.stored with
        directScan := .script .directScan items none
        claims := .script { ClaimScript.plain with standsIn := true } } with
    engine := ⟨false, .ofSeconds 30, backoff⟩
    selector := ⟨.directScan, 0⟩
    store := .empty
    time
    handedOut := .ofList handedOut }

/-- A build of a protected ref, a lost build, twice, a build that is there, and an error. -/
def Bench.motley : Bench :=
  .scripted .zero default
    [.build ⟨⟨1⟩, ⟨10⟩, ⟨1⟩, .empty, true, default⟩,
      .build ⟨⟨2⟩, ⟨10⟩, ⟨1⟩, .empty, false, default⟩,
      .build ⟨⟨2⟩, ⟨10⟩, ⟨1⟩, .empty, false, default⟩,
      .build ⟨⟨3⟩, ⟨10⟩, ⟨1⟩, .empty, false, default⟩,
      .error (.backend "connection reset")] [⟨2⟩]

/-- A runner that may not see protected refs loses the second build twice and is given the third. -/
theorem claimFrom_first_decides_motley :
    let eligibility : Eligibility := ⟨⟨⟨7⟩, .everything, .empty, true, false, true⟩, default⟩
    let pass := claimFrom .directScan .everything eligibility 1
    let past := pass.transcript Bench.handle Bench.motley
    (∀ x ∈ past, x.isLate 1 = false) ∧ claimedIn past = [⟨2⟩, ⟨2⟩, ⟨3⟩] ∧
    (pass.run Bench.handle Bench.motley).1 = .ok (.assigned ⟨⟨3⟩, ⟨7⟩, default⟩ 2) ∧
    ∃ (snapshot : Feed) (made : List Exchange) (before : List QueuedBuild) (left : List FeedEntry)
      (last : List Exchange),
      past = ⟨.fetch .directScan .everything default, snapshot⟩ :: made ∧
      snapshot.entries (answersIn made) = before.map .ok ++ left ∧
      callsIn made = (before.filter eligibility.admits).map (·.lostBy ⟨7⟩) ++ last ∧
      Decides eligibility.admits ⟨7⟩ (before.filter eligibility.admits).length left last
        (pass.run Bench.handle Bench.motley).1 := by
  intro eligibility pass past
  have hintime : ∀ x ∈ past, x.isLate 1 = false := by decide +kernel
  obtain ⟨snapshot, made, before, left, last, hpast, hentries, hcalls, hdecides, -, -⟩ :=
    claimFrom_first_decides Bench.handle Bench.motley .directScan .everything eligibility 1 hintime
  exact ⟨hintime, by decide +kernel, by decide +kernel, snapshot, made, before, left, last, hpast,
    hentries, hcalls, hdecides⟩

end BuildQueue
