import BuildQueue.Proofs.Store.Service

/-!
# Many polls at one store

Polls and other writers take turns at one store, one request at a time and in any order; a poll may
start at any time, and one that gets no further turn is given up. The log of such traffic is a
history of the store, and what was given to the claims of a poll in the log is what the poll knows
of and hands out in the end.
-/

namespace BuildQueue

/-- A turn at the store. -/
inductive TrafficStep where
  /-- A write that is no poll's. -/
  | write (op : StoreOperation)
  | start (engine : Engine) (runner : Runner) (options : PollOptions)
  /-- The next request of a poll, made at a moment under a selected strategy. -/
  | turn (poll : Nat) (moment : Moment) (selected : StrategyKind)
  /-- The next request of a poll, if it is not a claim, gets another reply than the store's. -/
  | divert (poll : Nat) (answer : (q : Request) → Reply q)

/-- A store, what is left of each poll, and the writes so far. -/
structure Traffic where
  store : Store
  polls : List (Program (Report PollOutcome))
  log : List StoreEvent

namespace Traffic

def start : Traffic := ⟨.empty, [], []⟩

def step (t : Traffic) : TrafficStep → Traffic
  | .write op =>
    { t with store := (t.store.apply op).2, log := t.log ++ [t.store.record none op] }
  | .start engine runner options =>
    { t with polls := t.polls ++ [engine.poll runner options] }
  | .turn i moment selected =>
    match t.polls[i]? with
    | some (.ask q next) =>
      let (reply, store) := t.store.handle moment selected q
      let events := (q.operation? moment.time).toList.map (t.store.record (some i))
      { store, polls := t.polls.set i (next reply), log := t.log ++ events }
    | _ => t
  | .divert i answer =>
    match t.polls[i]? with
    | some (.ask (.claim ..) _) => t
    | some (.ask q next) => { t with polls := t.polls.set i (next (answer q)) }
    | _ => t

def run (steps : List TrafficStep) : Traffic := steps.foldl step start

/-- What was given to the claims of a poll. -/
def takenBy (i : Nat) (log : List StoreEvent) : List Assignment :=
  (log.filter (·.poll = some i)).filterMap StoreEvent.taken?

/-- What is left of a poll hands out, in the end, all that its claims were given before and will
be given. -/
def Accounts (given : List Assignment) (p : Program (Report PollOutcome)) : Prop :=
  ∃ past, takenIn past = given ∧
    p.Ensures (fun past report ↦ takenIn past = report.assignments) past

/-- The log is a history of the store, and every poll accounts for what its claims were given. -/
structure Sound (t : Traffic) : Prop where
  history : Store.History t.log t.store
  poll_lt : ∀ e ∈ t.log, ∀ i, e.poll = some i → i < t.polls.length
  accounts : ∀ i p, t.polls[i]? = some p → Accounts (takenBy i t.log) p

variable {t : Traffic}

theorem takenBy_append (i : Nat) (log events : List StoreEvent) :
    takenBy i (log ++ events) = takenBy i log ++ takenBy i events := by
  unfold takenBy
  rw [List.filter_append, List.filterMap_append]

theorem takenBy_of_forall_ne {i : Nat} {log : List StoreEvent} (h : ∀ e ∈ log, e.poll ≠ some i) :
    takenBy i log = [] := by
  unfold takenBy
  rw [List.filter_eq_nil_iff.2, List.filterMap_nil]
  intro e he
  simpa using h e he

theorem takenBy_of_forall_eq {i : Nat} {log : List StoreEvent} (h : ∀ e ∈ log, e.poll = some i) :
    takenBy i log = log.filterMap StoreEvent.taken? := by
  unfold takenBy
  rw [List.filter_eq_self.2]
  intro e he
  simpa using h e he

/-- Any reply but a claim's is as good as another one. -/
theorem Accounts.tell {given : List Assignment} {q : Request}
    {next : Reply q → Program (Report PollOutcome)} (h : Accounts given (.ask q next))
    (reply : Reply q) :
    Accounts (given ++ (Exchange.taken? ⟨q, reply⟩).toList) (next reply) := by
  obtain ⟨past, hpast, hensures⟩ := h
  refine ⟨past ++ [⟨q, reply⟩], ?_, hensures reply⟩
  rw [takenIn_append_singleton, hpast]

namespace Sound

/-- A poll goes on, and what it wrote is in the log. -/
theorem advance (h : t.Sound) {i : Nat} {p p' : Program (Report PollOutcome)} {store : Store}
    {events : List StoreEvent} (hp : t.polls[i]? = some p)
    (hhistory : Store.History (t.log ++ events) store)
    (hevents : ∀ e ∈ events, e.poll = some i)
    (haccounts : Accounts (takenBy i t.log ++ events.filterMap StoreEvent.taken?) p') :
    Sound { store, polls := t.polls.set i p', log := t.log ++ events } := by
  have hlt : i < t.polls.length := (List.getElem?_eq_some_iff.1 hp).1
  constructor
  · exact hhistory
  · intro e he j hj
    rw [List.length_set]
    rcases List.mem_append.1 he with he | he
    · exact h.poll_lt e he j hj
    · rw [hevents e he, Option.some.injEq] at hj
      omega
  · intro j other hother
    change Accounts (takenBy j (t.log ++ events)) other
    rw [List.getElem?_set] at hother
    rw [takenBy_append]
    split at hother
    next hij =>
      rw [← hij, ← Option.some.inj hother, takenBy_of_forall_eq hevents]
      exact haccounts
    next hij =>
      have hnone : takenBy j events = [] := takenBy_of_forall_ne fun e he hj ↦ by
        rw [hevents e he, Option.some.injEq] at hj
        exact hij hj
      rw [hnone, List.append_nil]
      exact h.accounts j other hother

theorem turn (h : t.Sound) (i : Nat) (moment : Moment) (selected : StrategyKind) :
    (t.step (.turn i moment selected)).Sound := by
  unfold step
  simp only
  split
  next q next hp =>
    have htell := (h.accounts i _ hp).tell (t.store.handle moment selected q).1
    cases hop : q.operation? moment.time with
    | none =>
      obtain ⟨hstore, hgiven⟩ := Store.handle_of_operation?_eq_none t.store moment selected hop
      rw [hgiven] at htell
      refine h.advance hp ?_ (by simp) (by simpa using htell)
      rw [hstore]
      simpa using h.history
    | some op =>
      obtain ⟨hstore, hgiven⟩ :=
        Store.handle_of_operation?_eq_some t.store moment selected (some i) hop
      rw [hgiven] at htell
      refine h.advance hp ?_ (by simp [Store.record]) ?_
      · rw [hstore]
        exact h.history.step (some i) op
      · cases htaken : (t.store.record (some i) op).taken? <;> simpa [htaken] using htell
  next => exact h

theorem divert (h : t.Sound) (i : Nat) (answer : (q : Request) → Reply q) :
    (t.step (.divert i answer)).Sound := by
  unfold step
  simp only
  split
  next => exact h
  next q next hnot hp =>
    have hgiven : Exchange.taken? ⟨q, answer q⟩ = none := by
      cases q with
      | claim job runner => exact (hnot job runner next rfl HEq.rfl).elim
      | _ => rfl
    have htell := (h.accounts i _ hp).tell (answer q)
    rw [hgiven] at htell
    have hadvance : Sound ⟨t.store, t.polls.set i (next (answer q)), t.log ++ []⟩ :=
      h.advance hp (by simpa using h.history) (by simp) htell
    simpa using hadvance
  next => exact h

theorem step (h : t.Sound) (step : TrafficStep) : (t.step step).Sound := by
  cases step with
  | write op =>
    constructor
    · exact h.history.step none op
    · intro e he i hi
      rcases List.mem_append.1 he with he | he
      · exact h.poll_lt e he i hi
      · rw [List.mem_singleton.1 he] at hi
        simp [Store.record] at hi
    · intro i p hp
      have hnone : takenBy i [t.store.record none op] = [] :=
        takenBy_of_forall_ne (by simp [Store.record])
      change Accounts (takenBy i (t.log ++ [t.store.record none op])) p
      rw [takenBy_append, hnone, List.append_nil]
      exact h.accounts i p hp
  | start engine runner options =>
    constructor
    · exact h.history
    · intro e he i hi
      have hlt : i < t.polls.length := h.poll_lt e he i hi
      change i < (t.polls ++ [engine.poll runner options]).length
      rw [List.length_append]
      omega
    · intro i p hp
      change (t.polls ++ [engine.poll runner options])[i]? = some p at hp
      rw [List.getElem?_append] at hp
      split at hp
      next => exact h.accounts i p hp
      next hge =>
        have hnew : takenBy i t.log = [] := takenBy_of_forall_ne fun e he hi ↦
          hge (h.poll_lt e he i hi)
        change Accounts (takenBy i t.log) p
        rw [List.getElem?_singleton] at hp
        split at hp
        next =>
          rw [hnew, ← Option.some.inj hp]
          exact ⟨[], rfl, engine.poll_ensures runner options⟩
        next => simp at hp
  | turn i moment selected => exact h.turn i moment selected
  | divert i answer => exact h.divert i answer

end Sound

theorem sound_run (steps : List TrafficStep) : (run steps).Sound := by
  unfold run
  induction steps using List.reverseRecOn with
  | nil => exact ⟨.start, by simp [start], by simp [start]⟩
  | append_singleton steps step ih =>
    rw [List.foldl_append]
    exact ih.step step

/-! ## Exactly once -/

/-- However polls and other writers take turns, a job is not taken a second time unless it was moved
back to pending in between, and what the claims of a poll took is what the poll hands out. -/
theorem taken_exactly_once (steps : List TrafficStep) :
    Store.History (run steps).log (run steps).store ∧
    (∀ job before first between second after,
      (run steps).log = before ++ first :: (between ++ second :: after) →
      first.takes job = true → second.takes job = true →
        ∃ e ∈ between, e.requeues job = true) ∧
    (∀ job, (∀ e ∈ (run steps).log, e.requeues job = false) →
      (run steps).log.countP (·.takes job) ≤ 1) ∧
    ∀ i report, (run steps).polls[i]? = some (.done report) →
      takenBy i (run steps).log = report.assignments := by
  have h : (run steps).Sound := sound_run steps
  refine ⟨h.history, ?_, ?_, ?_⟩
  · intro job before first between second after hlog hfirst hsecond
    have hhistory := h.history
    rw [hlog] at hhistory
    exact hhistory.requeued hfirst hsecond
  · intro job hnot
    exact h.history.countP_takes_le_one hnot
  · intro i report hreport
    obtain ⟨past, hpast, hensures⟩ := h.accounts i _ hreport
    rw [← hpast]
    exact hensures

/-- One job that is taken by a poll, moved back to pending and taken by another claim. -/
def handedOutTwice : List TrafficStep :=
  [.write (.putProject (.opened ⟨1⟩ ⟨1⟩)),
    .write (.enqueue ⟨⟨1⟩, .empty, false, default⟩),
    .start ⟨true, .zero, .zero⟩ ⟨⟨7⟩, .everything, .empty, true, true, true⟩
      ⟨some (.ofSeconds 1), some default⟩,
    .turn 0 ⟨0, default⟩ .projection,
    .turn 0 ⟨0, default⟩ .projection,
    .turn 0 ⟨0, default⟩ .projection,
    .turn 0 ⟨0, default⟩ .projection,
    .turn 0 ⟨0, default⟩ .projection,
    .write (.setStatus ⟨1⟩ .pending),
    .write (.tryClaim ⟨1⟩ ⟨8⟩ default)]

theorem taken_exactly_once_handedOutTwice :
    (∃ before first between second after,
      (run handedOutTwice).log = before ++ first :: (between ++ second :: after) ∧
      first.takes ⟨1⟩ = true ∧ second.takes ⟨1⟩ = true ∧
      ∃ e ∈ between, e.requeues ⟨1⟩ = true) ∧
    ((∀ e ∈ (run handedOutTwice).log, e.requeues ⟨2⟩ = false) ∧
      (run handedOutTwice).log.countP (·.takes ⟨2⟩) ≤ 1) ∧
    ∃ report, (run handedOutTwice).polls[0]? = some (.done report) ∧
      takenBy 0 (run handedOutTwice).log = report.assignments := by
  obtain ⟨-, hbetween, honce, hpolls⟩ := taken_exactly_once handedOutTwice
  refine ⟨?_, ?_, ?_⟩
  · have hlog : (run handedOutTwice).log = (run handedOutTwice).log.take 2 ++
        ⟨some 0, .tryClaim ⟨1⟩ ⟨7⟩ default, .assigned ⟨⟨1⟩, ⟨7⟩, default⟩⟩ ::
          ([⟨none, .setStatus ⟨1⟩ .pending, .done⟩] ++
            ⟨none, .tryClaim ⟨1⟩ ⟨8⟩ default, .assigned ⟨⟨1⟩, ⟨8⟩, default⟩⟩ :: []) := by
      decide +kernel
    exact ⟨_, _, _, _, _, hlog, by decide, by decide,
      hbetween ⟨1⟩ _ _ _ _ _ hlog (by decide) (by decide)⟩
  · have hnot : ∀ e ∈ (run handedOutTwice).log, e.requeues ⟨2⟩ = false := by decide +kernel
    exact ⟨hnot, honce ⟨2⟩ hnot⟩
  · have hdone : ((run handedOutTwice).polls[0]?.bind Program.result?).isSome = true := by
      decide +kernel
    obtain ⟨report, hreport⟩ := Option.isSome_iff_exists.1 hdone
    obtain ⟨p, hp, hresult⟩ := Option.bind_eq_some_iff.1 hreport
    rw [Program.eq_done_of_result? hresult] at hp
    exact ⟨report, hp, hpolls 0 report hp⟩

end Traffic

end BuildQueue
