import BuildQueue.Proofs.Simulation.Seed
import Mathlib.Algebra.Order.BigOperators.Group.List
import Mathlib.Algebra.Order.Group.Multiset

/-!
# Workers at one store

While workers take turns, what they hold and what is left to take are together all the builds, and
each of them holds builds in the order of their ids. Every turn that a worker takes uses up one of
the turns that its poll has left, and a poll that is over gives room for another one only if it
brought a build.
-/

namespace BuildQueue

/-- What a sum over a list becomes when one element is replaced. -/
theorem sum_map_set {α M : Type} [AddCommMonoid M] (f : α → M) {xs : List α} {i : Nat} {x : α}
    (h : xs[i]? = some x) (y : α) :
    ((xs.set i y).map f).sum + f x = (xs.map f).sum + f y := by
  induction xs generalizing i with
  | nil => simp at h
  | cons first xs ih =>
    cases i with
    | zero =>
      obtain rfl : first = x := Option.some.inj h
      simp only [List.set_cons_zero, List.map_cons, List.sum_cons]
      ac_rfl
    | succ i =>
      simp only [List.set_cons_succ, List.map_cons, List.sum_cons]
      rw [add_assoc, ih h, add_assoc]

/-! ## Counts -/

namespace Metrics

/-- The counts of polls of which so many were assigned and so many came back empty. -/
def tally (assigned empty : Nat) (conflicts : UInt64) : Metrics :=
  { zero with
    polls := .ofNat (assigned + empty)
    assigned := .ofNat assigned
    empty := .ofNat empty
    conflicts }

theorem tally_assigned (assigned empty : Nat) (conflicts more : UInt64) :
    tally assigned empty conflicts + { zero with polls := 1, assigned := 1, conflicts := more } =
      tally (assigned + 1) empty (conflicts + more) := by
  apply Metrics.ext
  · change UInt64.ofNat (assigned + empty) + .ofNat 1 = .ofNat (assigned + 1 + empty)
    rw [← UInt64.ofNat_add, Nat.add_right_comm]
  · exact (UInt64.ofNat_add assigned 1).symm
  · exact UInt64.add_zero _
  all_goals rfl

theorem tally_empty (assigned empty : Nat) (conflicts more : UInt64) :
    tally assigned empty conflicts + (Metrics.emptyPoll + { zero with conflicts := more }) =
      tally assigned (empty + 1) (conflicts + more) := by
  apply Metrics.ext
  · exact (UInt64.ofNat_add (assigned + empty) 1).symm
  · exact UInt64.add_zero _
  · exact (UInt64.ofNat_add empty 1).symm
  · exact congrArg (conflicts + ·) (UInt64.zero_add more)
  all_goals rfl

end Metrics

/-! ## Turns -/

namespace Simulation

/-- There is such a worker, and it is still at work. -/
def hasTurn (sim : Simulation) (i : Nat) : Bool := sim.workers[i]?.any Worker.isAtWork

/-- In its turn the worker takes over that its poll timed out. -/
def seesTimeout (sim : Simulation) (i : Nat) : Bool :=
  match sim.workers[i]?.map Worker.stage with
  | some (.polling (.done report)) => report.metrics.timeouts != 0
  | _ => false

/-- No poll of a worker times out. -/
def inTime : Simulation → List Turn → Bool
  | _, [] => true
  | sim, turn :: schedule => !sim.seesTimeout turn.1 && (sim.step turn.1 turn.2).inTime schedule

/-- The number of turns that workers at work are given. -/
def turnsTaken : Simulation → List Turn → Nat
  | _, [] => 0
  | sim, turn :: schedule =>
    (if sim.hasTurn turn.1 then 1 else 0) + (sim.step turn.1 turn.2).turnsTaken schedule

end Simulation

/-! ## Workers -/

/-- How workers drain a store: with which engine and strategy, from which instant on, which builds,
and whether there is only one worker. -/
structure Workload where
  engine : Engine
  selected : StrategyKind
  now : Instant
  builds : List QueuedBuild
  alone : Prop
  backoff_eq : engine.backoff = .zero
  ascending : (builds.map (·.jobId)).Pairwise (·.toInt < ·.toInt)

/-- What a worker was assigned and what its poll has in hand. -/
def Worker.holding (w : Worker) : List Assignment :=
  w.claimed ++
    match w.stage with
    | .polling poll => poll.held
    | _ => []

namespace Workload

/-- The turns of a poll and one to take over what it came to. -/
def turnsPerPoll (load : Workload) : Nat := 2 * load.builds.length + 5

/-- Where a worker stands that has so many turns left until its poll is over. -/
inductive Stands (load : Workload) (queue : List QueuedBuild) : Worker → Nat → Prop
  | polling {runner : Runner} {poll : Program (Report PollOutcome)} {claimed : List Assignment}
    {turns : Nat} (h : Pursues load.selected load.now load.alone turns queue poll) :
    Stands load queue ⟨runner, .polling poll, claimed⟩ (turns + 1)
  | stopped {runner : Runner} {claimed : List Assignment} (h : queue = []) :
    Stands load queue ⟨runner, .stopped, claimed⟩ 0

/-- A worker with its turns that are left. What it holds comes before all that is left to take. -/
structure Employs (load : Workload) (queue : List QueuedBuild) (x : Worker × Nat) : Prop where
  stands : load.Stands queue x.1 x.2
  suits : x.1.runner.Suits load.now load.builds
  ordered : (x.1.holding.map (·.jobId) ++ queue.map (·.jobId)).Pairwise (·.toInt < ·.toInt)

variable {load : Workload} {queue queue' : List QueuedBuild}

theorem Stands.stable {w : Worker} {turns : Nat} (h : load.Stands queue w turns)
    (hqueue : MayBecome load.alone queue queue') : load.Stands queue' w turns := by
  cases h with
  | polling h => exact .polling (h.stable hqueue)
  | stopped h =>
    subst h
    exact .stopped (List.suffix_nil.1 hqueue.1)

/-- What others take does not touch a worker. -/
theorem Employs.stable {x : Worker × Nat} (h : load.Employs queue x)
    (hqueue : MayBecome load.alone queue queue') : load.Employs queue' x where
  stands := h.stands.stable hqueue
  suits := h.suits
  ordered := h.ordered.sublist ((hqueue.1.sublist.map _).append_left _)

/-- The builds that were handed out and taken over. -/
def collected (crew : List (Worker × Nat)) : Nat := (crew.map fun x ↦ x.1.claimed.length).sum

def stopped (crew : List (Worker × Nat)) : Nat :=
  (crew.map fun x ↦ if x.1.isAtWork then 0 else 1).sum

def held (crew : List (Worker × Nat)) : Multiset JobId :=
  (crew.map fun x ↦ (x.1.holding.map (·.jobId) : Multiset JobId)).sum

section

variable {crew : List (Worker × Nat)} {i : Nat} {x : Worker × Nat} (h : crew[i]? = some x)
  (y : Worker × Nat)

include h

theorem collected_set : collected (crew.set i y) + x.1.claimed.length =
    collected crew + y.1.claimed.length :=
  sum_map_set (fun z ↦ z.1.claimed.length) h y

theorem stopped_set : stopped (crew.set i y) + (if x.1.isAtWork then 0 else 1) =
    stopped crew + (if y.1.isAtWork then 0 else 1) :=
  sum_map_set (fun z ↦ if z.1.isAtWork then 0 else 1) h y

theorem held_set : held (crew.set i y) + (x.1.holding.map (·.jobId) : Multiset JobId) =
    held crew + (y.1.holding.map (·.jobId) : Multiset JobId) :=
  sum_map_set (fun z ↦ (z.1.holding.map (·.jobId) : Multiset JobId)) h y

end

/-- The invariant of a simulation in which so many turns were taken. -/
structure Ongoing (load : Workload) (taken : Nat) (sim : Simulation) (queue : List QueuedBuild)
    (crew : List (Worker × Nat)) : Prop where
  engine : sim.engine = load.engine
  selected : sim.selected = load.selected
  store : sim.store.Remains load.now queue
  queue_suffix : queue <:+ load.builds
  workers : sim.workers = crew.map Prod.fst
  alone : load.alone → crew.length = 1
  employs : ∀ (i : Nat) x, crew[i]? = some x → load.Employs queue x
  jobs : held crew + (queue.map (·.jobId) : Multiset JobId) = (load.builds.map (·.jobId))
  metrics : ∃ conflicts, (load.alone → conflicts = 0) ∧
    sim.metrics = .tally (collected crew) (stopped crew) conflicts
  turns : taken + (crew.map Prod.snd).sum ≤ load.turnsPerPoll * (crew.length + collected crew)

theorem collected_le_card (crew : List (Worker × Nat)) : collected crew ≤ (held crew).card := by
  unfold collected held
  induction crew with
  | nil => exact Nat.le_refl 0
  | cons x crew ih =>
    have hclaimed : x.1.claimed.length ≤ x.1.holding.length := by
      unfold Worker.holding
      rw [List.length_append]
      exact Nat.le_add_right _ _
    simp only [List.map_cons, List.sum_cons, Multiset.card_add, Multiset.coe_card, List.length_map]
    omega

namespace Ongoing

variable {taken : Nat} {sim : Simulation} {crew : List (Worker × Nat)}

theorem collected_le (h : load.Ongoing taken sim queue crew) :
    collected crew ≤ load.builds.length := by
  have hjobs := congrArg Multiset.card h.jobs
  rw [Multiset.card_add, Multiset.coe_card, Multiset.coe_card, List.length_map, List.length_map]
    at hjobs
  have hheld := collected_le_card crew
  omega

/-- A worker goes on, and takes no more from the queue than what it holds then. -/
theorem replace (h : load.Ongoing taken sim queue crew) {i : Nat} {x y : Worker × Nat}
    (hx : crew[i]? = some x) {took rest : List QueuedBuild} (hqueue : queue = took ++ rest)
    {store : Store} (hstore : store.Remains load.now rest) (hrunner : y.1.runner = x.1.runner)
    (hholding : y.1.holding.map (·.jobId) = x.1.holding.map (·.jobId) ++ took.map (·.jobId))
    (hstands : load.Stands rest y.1 y.2) {metrics : Metrics}
    (hmetrics : ∃ conflicts, (load.alone → conflicts = 0) ∧
      metrics = .tally (collected (crew.set i y)) (stopped (crew.set i y)) conflicts)
    {taken' : Nat} (hturns : taken' + ((crew.set i y).map Prod.snd).sum ≤
      load.turnsPerPoll * (crew.length + collected (crew.set i y))) :
    load.Ongoing taken' { sim with store, workers := sim.workers.set i y.1, metrics } rest
      (crew.set i y) where
  engine := h.engine
  selected := h.selected
  store := hstore
  queue_suffix := by
    rw [hqueue] at h
    exact (List.suffix_append _ _).trans h.queue_suffix
  workers := by
    rw [List.map_set, h.workers]
  alone halone := by
    rw [List.length_set]
    exact h.alone halone
  employs j z hz := by
    rw [List.getElem?_set] at hz
    split at hz
    next hij =>
      have hworker := h.employs i x hx
      obtain ⟨-, rfl⟩ : i < crew.length ∧ y = z := by simpa using hz
      refine ⟨hstands, ?_, ?_⟩
      · rw [hrunner]
        exact hworker.suits
      · rw [hholding, List.append_assoc, ← List.map_append, ← hqueue]
        exact hworker.ordered
    next hij =>
      refine (h.employs j z hz).stable ⟨hqueue ▸ List.suffix_append _ _, fun halone ↦ ?_⟩
      -- There is no other worker if there is only one.
      have hone := h.alone halone
      have hi := (List.getElem?_eq_some_iff.1 hx).1
      have hj := (List.getElem?_eq_some_iff.1 hz).1
      omega
  jobs := by
    have htook : held (crew.set i y) = held crew + (took.map (·.jobId) : Multiset JobId) := by
      apply add_right_cancel (b := (x.1.holding.map (·.jobId) : Multiset JobId))
      rw [held_set hx y, hholding, ← Multiset.coe_add]
      ac_rfl
    have hjobs := h.jobs
    rw [hqueue, List.map_append, ← Multiset.coe_add, ← add_assoc] at hjobs
    rw [htook]
    exact hjobs
  metrics := hmetrics
  turns := by
    rw [List.length_set]
    exact hturns

/-- A request of a poll. -/
theorem ask (h : load.Ongoing taken sim queue crew) {i turns : Nat} {runner : Runner}
    {q : Request} {next : Reply q → Program (Report PollOutcome)} {claimed : List Assignment}
    (hx : crew[i]? = some (⟨runner, .polling (.ask q next), claimed⟩, turns + 1))
    (hpursues : Pursues load.selected load.now load.alone turns queue (.ask q next))
    {moment : Moment} (hnow : load.now ≤ moment.time) :
    ∃ queue' crew', load.Ongoing (taken + 1)
      { sim with
        store := (sim.store.handle moment sim.selected q).2
        workers := sim.workers.set i
          ⟨runner, .polling (next (sim.store.handle moment sim.selected q).1), claimed⟩ }
      queue' crew' := by
  cases turns with
  | zero => exact absurd hpursues id
  | succ turns =>
    obtain ⟨took, rest, hqueue, hheld, hrest, hnext⟩ :=
      hpursues sim.store moment queue ⟨List.suffix_refl _, fun _ ↦ rfl⟩ h.store hnow
    let poll := next (sim.store.handle moment sim.selected q).1
    have hpoll : poll = next (sim.store.handle moment load.selected q).1 := by rw [← h.selected]
    rw [← hpoll] at hheld hnext
    rw [← h.selected] at hrest
    let y : Worker × Nat := (⟨runner, .polling poll, claimed⟩, turns + 1)
    have hcollected : collected (crew.set i y) = collected crew :=
      Nat.add_right_cancel (collected_set hx y)
    have hstopped : stopped (crew.set i y) = stopped crew :=
      Nat.add_right_cancel (stopped_set hx y)
    have hleft : ((crew.set i y).map Prod.snd).sum + 1 = (crew.map Prod.snd).sum := by
      have hsum := sum_map_set Prod.snd hx y
      change _ + (turns + 1 + 1) = _ + (turns + 1) at hsum
      omega
    have hturns := h.turns
    refine ⟨rest, crew.set i y, h.replace (y := y) hx hqueue hrest rfl ?_ (.polling hnext) ?_ ?_⟩
    · change (claimed ++ poll.held).map _ = (claimed ++ []).map _ ++ _
      rw [List.map_append, List.append_nil, hheld]
    · rw [hcollected, hstopped]
      exact h.metrics
    · rw [hcollected]
      omega

/-- A poll that brought a build is followed by another one. -/
theorem collect (h : load.Ongoing taken sim queue crew) {i turns : Nat} {runner : Runner}
    {a : Assignment} {claimed : List Assignment} {conflicts : UInt64} {report : Report PollOutcome}
    (hreport : report =
      ⟨.ok (.assigned a), { Metrics.zero with polls := 1, assigned := 1, conflicts }⟩)
    (hx : crew[i]? = some (⟨runner, .polling (.done report), claimed⟩, turns + 1))
    (hconflicts : load.alone → conflicts = 0) :
    ∃ queue' crew', load.Ongoing (taken + 1)
      { sim with
        workers := sim.workers.set i
          ⟨runner, .polling (Worker.poll sim.engine runner), claimed ++ [a]⟩
        metrics := sim.metrics + report.metrics }
      queue' crew' := by
  have hworker := h.employs i _ hx
  have hsuits : runner.Suits load.now queue := hworker.suits.of_subset h.queue_suffix.subset
  have hpoll : Pursues load.selected load.now load.alone (2 * queue.length + 4) queue
      (Worker.poll sim.engine runner) := by
    rw [h.engine]
    exact pursues_poll load.engine load.backoff_eq hsuits
  let y : Worker × Nat := (⟨runner, .polling (Worker.poll sim.engine runner), claimed ++ [a]⟩,
    2 * queue.length + 4 + 1)
  have hcollected : collected (crew.set i y) = collected crew + 1 := by
    have hsum := collected_set hx y
    change _ + claimed.length = _ + (claimed ++ [a]).length at hsum
    rw [List.length_append, List.length_singleton] at hsum
    omega
  have hstopped : stopped (crew.set i y) = stopped crew :=
    Nat.add_right_cancel (stopped_set hx y)
  have hleft : ((crew.set i y).map Prod.snd).sum + (turns + 1) =
      (crew.map Prod.snd).sum + (2 * queue.length + 4 + 1) := sum_map_set Prod.snd hx y
  have hqueue : queue.length ≤ load.builds.length := h.queue_suffix.length_le
  have hturns := h.turns
  refine ⟨queue, crew.set i y,
    h.replace (y := y) hx (List.nil_append queue).symm h.store rfl ?_ (.polling hpoll) ?_ ?_⟩
  · have hheld : (Worker.poll sim.engine runner).held = [] := hsuits.held_poll _
    change (claimed ++ [a] ++ (Worker.poll sim.engine runner).held).map _ =
      (claimed ++ report.assignments).map _ ++ []
    rw [hheld, hreport, List.append_nil, List.append_nil]
    rfl
  · obtain ⟨before, hbefore, hmetrics⟩ := h.metrics
    refine ⟨before + conflicts, fun halone ↦ ?_, ?_⟩
    · rw [hbefore halone, hconflicts halone]
      rfl
    · rw [hcollected, hstopped, hmetrics, hreport, Metrics.tally_assigned]
  · have hroom : load.turnsPerPoll = 2 * load.builds.length + 5 := rfl
    rw [hcollected, ← Nat.add_assoc, Nat.mul_succ]
    omega

/-- A worker whose poll brought nothing stops. -/
theorem stop (h : load.Ongoing taken sim queue crew) {i turns : Nat} {runner : Runner}
    {claimed : List Assignment} {conflicts : UInt64} {report : Report PollOutcome}
    (hreport : report = .emptyPoll { Metrics.zero with conflicts })
    (hx : crew[i]? = some (⟨runner, .polling (.done report), claimed⟩, turns + 1))
    (hnone : queue = []) (hconflicts : load.alone → conflicts = 0) :
    ∃ queue' crew', load.Ongoing (taken + 1)
      { sim with
        workers := sim.workers.set i ⟨runner, .stopped, claimed⟩
        metrics := sim.metrics + report.metrics }
      queue' crew' := by
  let y : Worker × Nat := (⟨runner, .stopped, claimed⟩, 0)
  have hcollected : collected (crew.set i y) = collected crew :=
    Nat.add_right_cancel (collected_set hx y)
  have hstopped : stopped (crew.set i y) = stopped crew + 1 := stopped_set hx y
  have hleft : ((crew.set i y).map Prod.snd).sum + (turns + 1) = (crew.map Prod.snd).sum :=
    sum_map_set Prod.snd hx y
  have hturns := h.turns
  refine ⟨queue, crew.set i y,
    h.replace (y := y) hx (List.nil_append queue).symm h.store rfl ?_ (.stopped hnone) ?_ ?_⟩
  · have hnothing : report.assignments = [] := by
      rw [hreport]
      rfl
    change (claimed ++ []).map _ = (claimed ++ report.assignments).map _ ++ []
    rw [hnothing, List.append_nil, List.append_nil]
  · obtain ⟨before, hbefore, hmetrics⟩ := h.metrics
    refine ⟨before + conflicts, fun halone ↦ ?_, ?_⟩
    · rw [hbefore halone, hconflicts halone]
      rfl
    · rw [hcollected, hstopped, hmetrics, hreport]
      exact Metrics.tally_empty _ _ _ _
  · rw [hcollected]
    omega

/-- Whoever is given the next turn, the simulation goes on. -/
theorem step (h : load.Ongoing taken sim queue crew) (i : Nat) {moment : Moment}
    (hnow : load.now ≤ moment.time) (hintime : sim.seesTimeout i = false) :
    ∃ queue' crew', load.Ongoing (taken + if sim.hasTurn i then 1 else 0) (sim.step i moment)
      queue' crew' := by
  unfold Simulation.step Simulation.hasTurn
  unfold Simulation.seesTimeout at hintime
  cases hworker : sim.workers[i]? with
  | none => exact ⟨queue, crew, h⟩
  | some w =>
    obtain ⟨x, hx, rfl⟩ : ∃ x, crew[i]? = some x ∧ x.1 = w := by
      rw [h.workers, List.getElem?_map] at hworker
      exact Option.map_eq_some_iff.1 hworker
    rw [hworker] at hintime
    have hemployed := h.employs i x hx
    obtain ⟨w, turns⟩ := x
    cases hemployed.stands with
    | stopped hnone => exact ⟨queue, crew, h⟩
    | @polling runner poll claimed turns hpursues =>
      cases poll with
      | ask q next => exact h.ask hx hpursues hnow
      | done report =>
        cases pursues_done.1 hpursues with
        | assigned a hconflicts => exact h.collect rfl hx hconflicts
        | empty hnone hconflicts => exact h.stop rfl hx hnone hconflicts
        | timedOut htimeout =>
          change (report.metrics.timeouts != 0) = false at hintime
          rw [htimeout] at hintime
          exact absurd hintime (by decide)

/-- The invariant holds throughout a run. -/
theorem run (h : load.Ongoing taken sim queue crew) {schedule : List Simulation.Turn}
    (hnow : ∀ turn ∈ schedule, load.now ≤ turn.2.time) (hintime : sim.inTime schedule = true) :
    ∃ queue' crew', load.Ongoing (taken + sim.turnsTaken schedule) (sim.run schedule)
      queue' crew' := by
  induction schedule generalizing sim taken queue crew with
  | nil => exact ⟨queue, crew, h⟩
  | cons turn schedule ih =>
    unfold Simulation.inTime at hintime
    rw [Bool.and_eq_true, Bool.not_eq_true'] at hintime
    obtain ⟨queue', crew', hstep⟩ := h.step turn.1 (hnow turn List.mem_cons_self) hintime.1
    have hrest := ih hstep (fun next hnext ↦ hnow next (List.mem_cons_of_mem _ hnext)) hintime.2
    rw [Nat.add_assoc] at hrest
    exact hrest

end Ongoing

end Workload

end BuildQueue
