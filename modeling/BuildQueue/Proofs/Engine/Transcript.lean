import BuildQueue.Engine.Poll

/-!
# Transcripts of programs

A transcript lists what a program asked with the replies it got. A program ensures a relation
between transcripts and results if it holds at every end, whatever the replies were; it asks only
what it may if no reply leads it to another request. Every poll ensures that what it hands out is
what it was given by a claim, and that it keeps back nothing that it was given.
-/

namespace BuildQueue

/-- A request with its reply. -/
structure Exchange where
  request : Request
  reply : Reply request

/-- What a claim was given. -/
def Exchange.taken? : Exchange → Option Assignment
  | ⟨.claim .., reply⟩ => reply.toOption.join
  | _ => none

theorem Exchange.taken?_eq_some_iff {x : Exchange} {a : Assignment} :
    x.taken? = some a ↔ ∃ job runner, x = ⟨.claim job runner, .ok (some a)⟩ := by
  constructor
  · intro h
    obtain ⟨q, reply⟩ := x
    cases q with
    | claim job runner =>
      rcases reply with e | _ | given
      · simp [taken?, Except.toOption] at h
      · simp [taken?, Except.toOption] at h
      · obtain rfl : given = a := by simpa [taken?, Except.toOption] using h
        exact ⟨job, runner, rfl⟩
    | _ => simp [taken?] at h
  · rintro ⟨job, runner, rfl⟩
    rfl

/-- Everything that was given to the claims of a transcript. -/
def takenIn (past : List Exchange) : List Assignment := past.filterMap Exchange.taken?

theorem takenIn_append_singleton (past : List Exchange) (x : Exchange) :
    takenIn (past ++ [x]) = takenIn past ++ x.taken?.toList := by
  unfold takenIn
  rw [List.filterMap_append]
  cases h : x.taken? <;> simp [h]

namespace Program

variable {α β σ : Type}

/-- The result of a program that has nothing more to ask. -/
def result? : Program α → Option α
  | .done a => some a
  | .ask .. => none

theorem eq_done_of_result? {p : Program α} {a : α} (h : p.result? = some a) : p = .done a := by
  cases p with
  | done b => rw [Option.some.inj h]
  | ask q next => simp [result?] at h

/-- Whatever is replied from now on, the transcript and the result are related in the end. -/
def Ensures (P : List Exchange → α → Prop) : List Exchange → Program α → Prop
  | past, .done a => P past a
  | past, .ask q next => ∀ reply, Ensures P (past ++ [⟨q, reply⟩]) (next reply)

variable {P : List Exchange → α → Prop} {past : List Exchange}

theorem Ensures.imp {Q : List Exchange → α → Prop} (hPQ : ∀ past a, P past a → Q past a)
    {p : Program α} (h : p.Ensures P past) : p.Ensures Q past := by
  induction p generalizing past with
  | done a => exact hPQ past a h
  | ask q next ih =>
    intro reply
    exact ih reply (h reply)

/-- A program and its continuation are looked at one after the other. -/
theorem ensures_bind {Q : List Exchange → β → Prop} {p : Program α} {f : α → Program β} :
    (p >>= f).Ensures Q past ↔ p.Ensures (fun past a ↦ (f a).Ensures Q past) past := by
  change (p.bind f).Ensures Q past ↔ _
  induction p generalizing past with
  | done a => rfl
  | ask q next ih =>
    constructor
    · intro h reply
      exact (ih reply).1 (h reply)
    · intro h reply
      exact (ih reply).2 (h reply)

/-- Every request of the program may be asked after what was asked and replied before it. -/
def Asks (may : List Exchange → Request → Prop) : List Exchange → Program α → Prop
  | _, .done _ => True
  | past, .ask q next => may past q ∧ ∀ reply, Asks may (past ++ [⟨q, reply⟩]) (next reply)

variable {may : List Exchange → Request → Prop}

theorem Asks.imp {may' : List Exchange → Request → Prop} (hmay : ∀ past q, may past q → may' past q)
    {p : Program α} (h : p.Asks may past) : p.Asks may' past := by
  induction p generalizing past with
  | done a => trivial
  | ask q next ih =>
    refine ⟨hmay past q h.1, fun reply ↦ ?_⟩
    exact ih reply (h.2 reply)

theorem asks_bind {p : Program α} {f : α → Program β} :
    (p >>= f).Asks may past ↔
      p.Asks may past ∧ p.Ensures (fun past a ↦ (f a).Asks may past) past := by
  change (p.bind f).Asks may past ↔ _
  induction p generalizing past with
  | done a => exact (and_iff_right trivial).symm
  | ask q next ih =>
    constructor
    · rintro ⟨hq, hnext⟩
      exact ⟨⟨hq, fun reply ↦ ((ih reply).1 (hnext reply)).1⟩,
        fun reply ↦ ((ih reply).1 (hnext reply)).2⟩
    · rintro ⟨⟨hq, hasks⟩, hensures⟩
      exact ⟨hq, fun reply ↦ (ih reply).2 ⟨hasks reply, hensures reply⟩⟩

/-- What a program asks and is replied when it runs. -/
def transcript (handle : Handler σ) : Program α → σ → List Exchange
  | .done _, _ => []
  | .ask q next, s => ⟨q, (handle q s).1⟩ :: (next (handle q s).1).transcript handle (handle q s).2

/-- What is ensured whatever the replies are holds of every run. -/
theorem Ensures.of_run {p : Program α} (h : p.Ensures P past) (handle : Handler σ) (s : σ) :
    P (past ++ p.transcript handle s) (p.run handle s).1 := by
  induction p generalizing past s with
  | done a =>
    rw [transcript, List.append_nil]
    exact h
  | ask q next ih =>
    have hrest := ih (handle q s).1 (h (handle q s).1) (handle q s).2
    rw [List.append_assoc] at hrest
    exact hrest

/-- In every run each request is one that may be asked there. -/
theorem Asks.of_run {p : Program α} (h : p.Asks may past) (handle : Handler σ) (s : σ)
    {before after : List Exchange} {x : Exchange}
    (hsplit : p.transcript handle s = before ++ x :: after) : may (past ++ before) x.request := by
  induction p generalizing past s before with
  | done a => simp [transcript] at hsplit
  | ask q next ih =>
    rw [transcript] at hsplit
    cases before with
    | nil =>
      obtain ⟨rfl, -⟩ := List.cons.inj hsplit
      rw [List.append_nil]
      exact h.1
    | cons y before =>
      obtain ⟨rfl, hrest⟩ := List.cons.inj hsplit
      have hmay := ih (handle q s).1 (h.2 (handle q s).1) (handle q s).2 hrest
      rw [List.append_assoc] at hmay
      exact hmay

end Program

/-! ## What is given is handed out -/

/-- What a pass hands out. -/
def ClaimPass.assignments : ClaimPass → List Assignment
  | .ok (.assigned a _) => [a]
  | _ => []

/-- What a poll hands out. -/
def Report.assignments (report : Report PollOutcome) : List Assignment :=
  (report.result.toOption.bind PollOutcome.assignment?).toList

theorem Report.mem_assignments {report : Report PollOutcome} {a : Assignment} :
    a ∈ report.assignments ↔ report.result = .ok (.assigned a) := by
  unfold assignments
  rcases report with ⟨e | _ | _, metrics⟩
  · simp [Except.toOption]
  · simp [Except.toOption, PollOutcome.assignment?, eq_comm]
  · simp [Except.toOption, PollOutcome.assignment?]

theorem Report.length_assignments_le_one (report : Report PollOutcome) :
    report.assignments.length ≤ 1 := by
  unfold assignments
  cases report.result.toOption.bind PollOutcome.assignment? <;> simp

@[simp] theorem ClaimPass.assignments_report (failovers : UInt64) (pass : ClaimPass) :
    (pass.report failovers).assignments = pass.assignments := by
  rcases pass with failure | a | skipped | skipped <;> rfl

variable {past : List Exchange}

theorem takenIn_nothing {x : Exchange} (hpast : takenIn past = []) (hx : x.taken? = none) :
    takenIn (past ++ [x]) = [] := by
  rw [takenIn_append_singleton, hpast, hx]
  rfl

/-- If nothing was asked after something was taken, what was taken was given to the last claim. -/
theorem exists_last_claim {a : Assignment}
    (h : ∀ before x after, past = before ++ x :: after → takenIn before = [])
    (ha : a ∈ takenIn past) :
    ∃ before job runner, past = before ++ [⟨.claim job runner, .ok (some a)⟩] := by
  obtain ⟨x, hx, hgiven⟩ := List.mem_filterMap.1 ha
  obtain ⟨job, runner, rfl⟩ := Exchange.taken?_eq_some_iff.1 hgiven
  obtain ⟨before, after, hsplit⟩ := List.append_of_mem hx
  cases after with
  | nil => exact ⟨before, job, runner, hsplit⟩
  | cons next after =>
    rw [List.append_cons] at hsplit
    have hnone := h _ next after hsplit
    rw [takenIn_append_singleton, hgiven, List.append_eq_nil_iff] at hnone
    exact absurd hnone.2 (List.cons_ne_nil a [])

/-- A pass stops at the first claim that is given anything. -/
theorem Feed.claimFirst_ensures (runner : RunnerId) (deadline : Tick) (feed : Feed)
    (skipped : Nat) (hpast : takenIn past = []) :
    (feed.claimFirst runner deadline skipped).Ensures
      (fun past pass ↦ takenIn past = pass.assignments) past := by
  induction feed generalizing past skipped with
  | done => exact hpast
  | item entry rest ih =>
    cases entry with
    | error e => exact hpast
    | ok build =>
      intro now
      have hnow : takenIn (past ++ [⟨.tick, now⟩]) = [] := takenIn_nothing hpast rfl
      change Program.Ensures _ _ (ite _ _ _)
      split
      · exact hnow
      · intro reply
        rcases reply with e | _ | a
        · exact takenIn_nothing hnow rfl
        · exact ih (skipped + 1) (takenIn_nothing hnow rfl)
        · change takenIn _ = [a]
          rw [takenIn_append_singleton, hnow]
          rfl
  | wait nanos rest ih =>
    intro reply
    cases reply with
    | true => exact ih skipped (takenIn_nothing hpast rfl)
    | false => exact takenIn_nothing hpast rfl
  | stall =>
    intro reply
    exact takenIn_nothing hpast rfl
  | statement s next ih =>
    unfold Feed.claimFirst
    intro reply
    cases reply with
    | some answer => exact ih answer skipped (takenIn_nothing hpast rfl)
    | none => exact takenIn_nothing hpast rfl

theorem claimFrom_ensures (strategy : StrategyKind) (scope : ProjectScope)
    (eligibility : Eligibility) (deadline : Tick) (hpast : takenIn past = []) :
    (claimFrom strategy scope eligibility deadline).Ensures
      (fun past pass ↦ takenIn past = pass.assignments) past := by
  intro feed
  exact Feed.claimFirst_ensures _ _ _ _ (takenIn_nothing hpast rfl)

theorem RunnerScope.resolve_ensures (scope : RunnerScope) (deadline : Deadline)
    (hpast : takenIn past = []) :
    (scope.resolve deadline).Ensures (fun past _ ↦ takenIn past = []) past := by
  cases scope with
  | everything => exact hpast
  | group root =>
    intro reply
    have hroot : takenIn (past ++ [⟨.descendants root deadline, reply⟩]) = [] :=
      takenIn_nothing hpast rfl
    rcases reply with _ | e | ids
    · exact hroot
    · exact hroot
    · intro reply
      rcases reply with _ | e | records <;> exact takenIn_nothing hroot rfl
  | project ids =>
    intro reply
    rcases reply with _ | e | records <;> exact takenIn_nothing hpast rfl

namespace Engine

theorem cutoff_ensures (engine : Engine) (cutoff : Option Instant) (hpast : takenIn past = []) :
    (engine.cutoff cutoff).Ensures (fun past _ ↦ takenIn past = []) past := by
  cases cutoff with
  | some cutoff => exact hpast
  | none =>
    intro now
    exact takenIn_nothing hpast rfl

/-- A pass that failed over was given nothing, so only the last pass counts. -/
theorem claim_ensures (engine : Engine) (scope : ProjectScope) (eligibility : Eligibility)
    (deadline : Tick) (hpast : takenIn past = []) :
    (engine.claim scope eligibility deadline).Ensures
      (fun past report ↦ takenIn past = report.assignments) past := by
  unfold claim
  rw [Program.ensures_bind]
  intro strategy
  have hstrategy : takenIn (past ++ [⟨.selection, strategy⟩]) = [] := takenIn_nothing hpast rfl
  change Program.Ensures _ _ (claimFrom .. >>= _)
  rw [Program.ensures_bind]
  apply (claimFrom_ensures strategy scope eligibility deadline hstrategy).imp
  intro past pass hpass
  have hreport (failovers : UInt64) (pass : ClaimPass) (hpass : takenIn past = pass.assignments) :
      takenIn past = (pass.report failovers).assignments := by
    rw [ClaimPass.assignments_report, hpass]
  rcases pass with (e | e) | result
  · change Program.Ensures _ _ (ite _ _ _)
    split
    · rw [Program.ensures_bind]
      apply (claimFrom_ensures .directScan scope eligibility deadline hpass).imp
      intro past pass hpass
      change takenIn past = (pass.report 1).assignments
      rw [ClaimPass.assignments_report, hpass]
    · exact hpass
  · exact hreport 0 _ hpass
  · exact hreport 0 _ hpass

/-- A poll hands out what one of its claims was given, and all that its claims were given. -/
theorem poll_ensures (engine : Engine) (runner : Runner) (options : PollOptions) :
    (engine.poll runner options).Ensures
      (fun past report ↦ takenIn past = report.assignments) [] := by
  unfold poll
  split
  · rfl
  · rw [Program.ensures_bind]
    intro start
    have hstart : takenIn ([] ++ [⟨.tick, start⟩]) = [] := takenIn_nothing rfl rfl
    change Program.Ensures _ _ (engine.cutoff _ >>= _)
    rw [Program.ensures_bind]
    apply (engine.cutoff_ensures options.queuedBefore hstart).imp
    intro past cutoff hcutoff
    rw [Program.ensures_bind]
    apply (runner.scope.resolve_ensures _ hcutoff).imp
    intro past resolution hresolution
    cases resolution with
    | failed e => exact hresolution
    | timedOut => exact hresolution
    | scope scope =>
      change Program.Ensures _ _ (ite _ _ _)
      split
      · exact hresolution
      · exact engine.claim_ensures _ _ _ hresolution

end Engine

end BuildQueue
