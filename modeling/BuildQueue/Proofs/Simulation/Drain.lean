import BuildQueue.Proofs.Simulation.OneByOne

/-!
# A simulation drains its store

However the workers of a simulation take turns, they can only take so many. When none of them is at
work any more, every build was assigned to one of them, none twice, and the report says so. If every
worker gets a turn again and again, that time comes.
-/

namespace BuildQueue

/-! ## Order -/

theorem toInt_le_of_isLE {a b : JobId} (h : (compare a b).isLE = true) : a.toInt ≤ b.toInt := by
  by_contra hlt
  have hless : compare b a = .lt := QueuedBuild.compare_jobId_eq_lt.2 (by omega)
  have hmore : compare a b = .gt := Std.OrientedCmp.gt_of_lt hless
  rw [hmore] at h
  exact absurd h (by decide)

/-- There is one way to put jobs in order. -/
theorem eq_of_perm_ascending {as bs : List JobId} (hperm : as.Perm bs)
    (ha : as.Pairwise (·.toInt ≤ ·.toInt)) (hb : bs.Pairwise (·.toInt ≤ ·.toInt)) : as = bs := by
  refine hperm.eq_of_pairwise (fun a b _ _ hab hba ↦ ?_) ha hb
  exact Id.ext (Int64.toInt_inj.1 (Int.le_antisymm hab hba))

namespace Simulation

theorem firstJobs_ascending {builds : Nat} (h : builds + 1 < 2 ^ 63) :
    (firstJobs builds).Pairwise (·.toInt < ·.toInt) := by
  unfold firstJobs
  rw [List.pairwise_map]
  refine List.pairwise_lt_range.imp_of_mem fun {i j} hi hj hij ↦ ?_
  have hi := List.mem_range.1 hi
  have hj := List.mem_range.1 hj
  rw [Id.toInt_ofInt (by omega), Id.toInt_ofInt (by omega)]
  omega

end Simulation

namespace Workload

variable {load : Workload} {queue : List QueuedBuild} {taken : Nat} {sim : Simulation}
  {crew : List (Worker × Nat)}

/-! ## The start -/

/-- So many workers before their first turns. -/
def opening (load : Workload) (runners : Nat) : List (Worker × Nat) :=
  (List.range runners).map fun i ↦
    (Worker.start load.engine (Simulation.seedRunner i), load.turnsPerPoll)

theorem length_opening (load : Workload) (runners : Nat) :
    (load.opening runners).length = runners := by
  unfold opening
  rw [List.length_map, List.length_range]

theorem sum_map_opening {M : Type} [AddCommMonoid M] {f : Worker × Nat → M}
    (h : ∀ i, f (Worker.start load.engine (Simulation.seedRunner i), load.turnsPerPoll) = 0)
    (runners : Nat) : ((load.opening runners).map f).sum = 0 := by
  refine List.sum_eq_zero fun m hm ↦ ?_
  obtain ⟨x, hx, rfl⟩ := List.mem_map.1 hm
  obtain ⟨i, -, rfl⟩ := List.mem_map.1 hx
  exact h i

theorem ongoing_ofStore (load : Workload) {s : Store} (hs : s.Remains load.now load.builds)
    {runners : Nat} (hsuits : ∀ i, (Simulation.seedRunner i).Suits load.now load.builds)
    (halone : load.alone → runners = 1) :
    load.Ongoing 0 (.ofStore load.engine load.selected s runners) load.builds
      (load.opening runners) := by
  have hholding (i : Nat) : (Worker.start load.engine (Simulation.seedRunner i)).holding = [] :=
    (hsuits i).held_poll load.engine
  have hheld : held (load.opening runners) = 0 :=
    sum_map_opening (fun i ↦ congrArg (fun jobs ↦ (jobs.map (·.jobId) : Multiset JobId))
      (hholding i)) runners
  have hcollected : collected (load.opening runners) = 0 := sum_map_opening (fun _ ↦ rfl) runners
  have hstopped : stopped (load.opening runners) = 0 := sum_map_opening (fun _ ↦ rfl) runners
  have hturns : ((load.opening runners).map Prod.snd).sum = runners * load.turnsPerPoll := by
    unfold opening
    rw [List.map_map]
    change ((List.range runners).map fun _ ↦ load.turnsPerPoll).sum = _
    rw [List.map_const', List.length_range, List.sum_replicate_nat]
  exact {
    engine := rfl
    selected := rfl
    store := hs
    queue_suffix := List.suffix_refl _
    workers := by
      unfold opening
      rw [List.map_map]
      rfl
    alone := fun h ↦ (load.length_opening runners).trans (halone h)
    employs := fun i x hx ↦ by
      obtain ⟨j, -, rfl⟩ := List.mem_map.1 (List.mem_of_getElem? hx)
      refine ⟨.polling (pursues_poll load.engine load.backoff_eq (hsuits j)), hsuits j, ?_⟩
      rw [hholding]
      exact load.ascending
    jobs := by rw [hheld, zero_add]
    metrics := ⟨0, fun _ ↦ rfl, by rw [hcollected, hstopped]; rfl⟩
    turns := by
      rw [hturns, hcollected, length_opening, Nat.zero_add, Nat.add_zero, Nat.mul_comm] }

/-! ## The end -/

/-- What a worker holds that has stopped is what it was assigned. -/
theorem held_eq_claimed (h : ∀ x ∈ crew, x.1.stage = .stopped) :
    held crew = (((crew.map Prod.fst).flatMap (·.claimed)).map (·.jobId) : List JobId) := by
  unfold held
  induction crew with
  | nil => rfl
  | cons x crew ih =>
    have hholding : x.1.holding = x.1.claimed := by
      unfold Worker.holding
      rw [h x List.mem_cons_self]
      exact List.append_nil _
    rw [List.map_cons, List.sum_cons, ih fun y hy ↦ h y (List.mem_cons_of_mem _ hy), hholding,
      List.map_cons, List.flatMap_cons, List.map_append, Multiset.coe_add]

namespace Ongoing

theorem failure?_eq_none (h : load.Ongoing taken sim queue crew) : sim.failure? = none := by
  unfold Simulation.failure?
  rw [List.findSome?_eq_none_iff, h.workers]
  intro w hw
  obtain ⟨x, hx, rfl⟩ := List.mem_map.1 hw
  obtain ⟨i, hi⟩ := List.mem_iff_getElem?.1 hx
  obtain ⟨w, turns⟩ := x
  cases (h.employs i _ hi).stands with
  | polling => rfl
  | stopped => rfl

theorem stopped_of_finished (h : load.Ongoing taken sim queue crew)
    (hfinished : sim.isFinished = true) {x : Worker × Nat} (hx : x ∈ crew) :
    x.1.stage = .stopped ∧ queue = [] := by
  obtain ⟨i, hi⟩ := List.mem_iff_getElem?.1 hx
  unfold Simulation.isFinished at hfinished
  rw [List.all_eq_true, h.workers] at hfinished
  have hidle := hfinished x.1 (List.mem_map_of_mem hx)
  obtain ⟨w, turns⟩ := x
  cases (h.employs i _ hi).stands with
  | polling => exact absurd hidle (by simp [Worker.isAtWork])
  | stopped hnone => exact ⟨rfl, hnone⟩

/-- All builds were assigned once nobody is at work. -/
theorem claimed_perm (h : load.Ongoing taken sim queue crew) (hcrew : crew ≠ [])
    (hfinished : sim.isFinished = true) :
    ((sim.workers.flatMap (·.claimed)).map (·.jobId)).Perm (load.builds.map (·.jobId)) := by
  have hstopped (x : Worker × Nat) (hx : x ∈ crew) := h.stopped_of_finished hfinished hx
  obtain ⟨x, hx⟩ := List.exists_mem_of_ne_nil crew hcrew
  have hjobs := h.jobs
  rw [(hstopped x hx).2, held_eq_claimed fun x hx ↦ (hstopped x hx).1, ← h.workers] at hjobs
  exact Multiset.coe_eq_coe.1 ((add_zero _).symm.trans hjobs)

theorem metrics_of_finished (h : load.Ongoing taken sim queue crew) (hcrew : crew ≠ [])
    (hfinished : sim.isFinished = true) : ∃ conflicts, (load.alone → conflicts = 0) ∧
      sim.metrics = .tally load.builds.length crew.length conflicts := by
  obtain ⟨conflicts, hconflicts, hmetrics⟩ := h.metrics
  have hcollected : collected crew = load.builds.length := by
    have hlength := (h.claimed_perm hcrew hfinished).length_eq
    rw [List.length_map, List.length_map, List.length_flatMap, h.workers, List.map_map] at hlength
    exact hlength
  have hstopped : stopped crew = crew.length := by
    have hone : crew.map (fun x ↦ if x.1.isAtWork then 0 else 1) = crew.map fun _ ↦ 1 := by
      refine List.map_congr_left fun x hx ↦ ?_
      unfold Worker.isAtWork
      rw [(h.stopped_of_finished hfinished hx).1]
      rfl
    unfold stopped
    rw [hone, List.map_const', List.sum_replicate_nat, Nat.mul_one]
  rw [hcollected, hstopped] at hmetrics
  exact ⟨conflicts, hconflicts, hmetrics⟩

/-- One worker is assigned the builds in order. -/
theorem claimed_of_alone (h : load.Ongoing taken sim queue crew) (halone : load.alone)
    (hfinished : sim.isFinished = true) :
    (sim.workers.flatMap (·.claimed)).map (·.jobId) = load.builds.map (·.jobId) := by
  obtain ⟨x, rfl⟩ := List.length_eq_one_iff.1 (h.alone halone)
  have hperm := h.claimed_perm (List.cons_ne_nil _ _) hfinished
  obtain ⟨hstopped, hnone⟩ := h.stopped_of_finished hfinished List.mem_cons_self
  have hordered := (h.employs 0 x rfl).ordered
  have hclaimed : sim.workers.flatMap (·.claimed) = x.1.holding := by
    unfold Worker.holding
    rw [hstopped, h.workers]
    simp
  rw [hclaimed] at hperm ⊢
  rw [hnone, List.map_nil, List.append_nil] at hordered
  exact eq_of_perm_ascending hperm (hordered.imp Int.le_of_lt) (load.ascending.imp Int.le_of_lt)

/-- The report lists all builds in order. -/
theorem report_of_finished (h : load.Ongoing taken sim queue crew) (hcrew : crew ≠ [])
    (hfinished : sim.isFinished = true) :
    sim.report load.builds.length = .ok ⟨load.selected, sim.assignments, sim.metrics⟩ ∧
      sim.assignments.map (·.jobId) = load.builds.map (·.jobId) := by
  have hjobs : sim.assignments.map (·.jobId) = load.builds.map (·.jobId) := by
    have hperm : (sim.assignments.map (·.jobId)).Perm
        ((sim.workers.flatMap (·.claimed)).map (·.jobId)) := (List.mergeSort_perm _ _).map _
    have hsorted : sim.assignments.Pairwise fun a b ↦ (compare a.jobId b.jobId).isLE = true := by
      apply List.pairwise_mergeSort
      · intro a b c hab hbc
        exact Std.TransCmp.isLE_trans hab hbc
      · intro a b
        have hswap : compare b.jobId a.jobId = (compare a.jobId b.jobId).swap :=
          Std.OrientedCmp.eq_swap
        rw [hswap]
        cases compare a.jobId b.jobId <;> rfl
    refine eq_of_perm_ascending (hperm.trans (h.claimed_perm hcrew hfinished)) ?_
      (load.ascending.imp Int.le_of_lt)
    rw [List.pairwise_map]
    exact hsorted.imp toInt_le_of_isLE
  have hnodup : (sim.assignments.map (·.jobId)).Nodup := by
    rw [hjobs]
    exact load.ascending.imp fun hlt heq ↦ absurd (congrArg Id.toInt heq) (Int.ne_of_lt hlt)
  have hlength : sim.assignments.length = load.builds.length := by
    simpa using congrArg List.length hjobs
  refine ⟨?_, hjobs⟩
  unfold Simulation.report
  rw [h.failure?_eq_none]
  change (if ¬ (sim.assignments.map (·.jobId)).Nodup then _
    else if sim.assignments.length ≠ load.builds.length then _ else _) = _
  rw [if_neg (not_not_intro hnodup), if_neg (not_not_intro hlength), h.selected]

end Ongoing

end Workload

namespace Simulation

/-! ## Turn after turn -/

variable {sim : Simulation}

theorem turnsTaken_append (sim : Simulation) (schedule later : List Turn) :
    sim.turnsTaken (schedule ++ later) =
      sim.turnsTaken schedule + (sim.run schedule).turnsTaken later := by
  induction schedule generalizing sim with
  | nil => exact (Nat.zero_add _).symm
  | cons turn schedule ih =>
    change _ + (sim.step turn.1 turn.2).turnsTaken (schedule ++ later) =
      _ + (sim.step turn.1 turn.2).turnsTaken schedule +
        ((sim.step turn.1 turn.2).run schedule).turnsTaken later
    rw [ih, Nat.add_assoc]

/-- A worker changes in its own turns only. -/
theorem getElem?_step {i j : Nat} (hij : i ≠ j) (moment : Moment) :
    (sim.step i moment).workers[j]? = sim.workers[j]? := by
  unfold step
  split
  · rfl
  · split
    · exact List.getElem?_set_ne hij
    · exact List.getElem?_set_ne hij
    · rfl

/-- The first turns of an endless schedule. -/
def firstTurns (turns : Nat → Turn) (k : Nat) : List Turn := (List.range k).map turns

variable {turns : Nat → Turn}

theorem firstTurns_succ (turns : Nat → Turn) (k : Nat) :
    firstTurns turns (k + 1) = firstTurns turns k ++ [turns k] := by
  unfold firstTurns
  rw [List.range_succ, List.map_append]
  rfl

theorem turnsTaken_succ (sim : Simulation) (turns : Nat → Turn) (k : Nat) :
    sim.turnsTaken (firstTurns turns (k + 1)) = sim.turnsTaken (firstTurns turns k) +
      if (sim.run (firstTurns turns k)).hasTurn (turns k).1 then 1 else 0 := by
  rw [firstTurns_succ, turnsTaken_append]
  rfl

theorem run_succ (sim : Simulation) (turns : Nat → Turn) (k : Nat) :
    sim.run (firstTurns turns (k + 1)) =
      (sim.run (firstTurns turns k)).step (turns k).1 (turns k).2 := by
  rw [firstTurns_succ]
  unfold run
  rw [List.foldl_append]
  rfl

/-- A worker at work takes its next turn. -/
theorem exists_turnsTaken_lt {i : Nat} (d k : Nat)
    (hwork : (sim.run (firstTurns turns k)).hasTurn i = true) (hturn : (turns (k + d)).1 = i) :
    ∃ k', sim.turnsTaken (firstTurns turns k) < sim.turnsTaken (firstTurns turns k') := by
  have htake {k : Nat} (hwork : (sim.run (firstTurns turns k)).hasTurn i = true)
      (hnow : (turns k).1 = i) :
      sim.turnsTaken (firstTurns turns k) < sim.turnsTaken (firstTurns turns (k + 1)) := by
    rw [turnsTaken_succ, hnow, if_pos hwork]
    exact Nat.lt_succ_self _
  induction d generalizing k with
  | zero => exact ⟨k + 1, htake hwork hturn⟩
  | succ d ih =>
    by_cases hnow : (turns k).1 = i
    · exact ⟨k + 1, htake hwork hnow⟩
    -- In the turn of another worker it stays at work.
    · have hlater : (sim.run (firstTurns turns (k + 1))).hasTurn i = true := by
        unfold hasTurn
        rw [run_succ, getElem?_step hnow]
        exact hwork
      rw [← Nat.add_assoc, Nat.add_right_comm] at hturn
      obtain ⟨k', hk'⟩ := ih (k + 1) hlater hturn
      refine ⟨k', Nat.lt_of_le_of_lt ?_ hk'⟩
      rw [turnsTaken_succ]
      exact Nat.le_add_right _ _

theorem length_run (sim : Simulation) (schedule : List Turn) :
    (sim.run schedule).workers.length = sim.workers.length := by
  have hstep (sim : Simulation) (i : Nat) (moment : Moment) :
      (sim.step i moment).workers.length = sim.workers.length := by
    unfold step
    split
    · rfl
    · split
      · exact List.length_set
      · exact List.length_set
      · rfl
  induction schedule generalizing sim with
  | nil => rfl
  | cons turn schedule ih => exact (ih _).trans (hstep sim turn.1 turn.2)

theorem exists_hasTurn (h : ¬ sim.isFinished = true) :
    ∃ i < sim.workers.length, sim.hasTurn i = true := by
  unfold isFinished at h
  rw [List.all_eq_true] at h
  obtain ⟨w, hw, hwork⟩ : ∃ w ∈ sim.workers, w.isAtWork = true := by
    by_contra hidle
    exact h fun w hw ↦ by simpa using fun hwork ↦ hidle ⟨w, hw, hwork⟩
  obtain ⟨i, hi⟩ := List.mem_iff_getElem?.1 hw
  refine ⟨i, (List.getElem?_eq_some_iff.1 hi).1, ?_⟩
  unfold hasTurn
  rw [hi]
  exact hwork

/-- If only so many turns can be taken and every worker gets its turn again and again, there comes a
time when nobody is at work. -/
theorem exists_finished {bound : Nat} (hbound : ∀ k, sim.turnsTaken (firstTurns turns k) ≤ bound)
    (hfair : ∀ i < sim.workers.length, ∀ k, ∃ j, k ≤ j ∧ (turns j).1 = i) :
    ∃ k, (sim.run (firstTurns turns k)).isFinished = true := by
  by_contra hnever
  have hmore (n : Nat) : ∃ k, n ≤ sim.turnsTaken (firstTurns turns k) := by
    induction n with
    | zero => exact ⟨0, Nat.zero_le _⟩
    | succ n ih =>
      obtain ⟨k, hk⟩ := ih
      obtain ⟨i, hi, hwork⟩ := exists_hasTurn fun hend ↦ hnever ⟨k, hend⟩
      rw [length_run] at hi
      obtain ⟨j, hj, hturn⟩ := hfair i hi k
      obtain ⟨d, rfl⟩ := Nat.exists_eq_add_of_le hj
      obtain ⟨k', hk'⟩ := exists_turnsTaken_lt d k hwork hturn
      exact ⟨k', Nat.lt_of_le_of_lt hk hk'⟩
  obtain ⟨k, hk⟩ := hmore (bound + 1)
  exact absurd (hbound k) (Nat.not_le_of_lt hk)

/-! ## The whole run -/

/-- Everybody has stopped, and so many builds were assigned, each of them once. -/
structure Drained (selected : StrategyKind) (builds runners : Nat) (sim : Simulation) : Prop where
  length : sim.workers.length = runners
  stopped : ∀ w ∈ sim.workers, w.stage = .stopped
  report : sim.report builds = .ok ⟨selected, sim.assignments, sim.metrics⟩
  assignments : sim.assignments.map (·.jobId) = firstJobs builds
  metrics : ∃ conflicts, sim.metrics = .tally builds runners conflicts
  /-- A runner on its own is assigned the builds in order and meets no one. -/
  alone : runners = 1 → sim.metrics.conflicts = 0 ∧
    (sim.workers.flatMap (·.claimed)).map (·.jobId) = firstJobs builds

/-- What the workers of a simulation are to drain. -/
def workload (engine : Engine) (hbackoff : engine.backoff = .zero) (selected : StrategyKind)
    (runners : Nat) {now : Instant} {builds : Nat} (hnow : Represents now builds) : Workload where
  engine
  selected
  now
  builds := seedQueue (seedStart now builds) builds
  alone := runners = 1
  backoff_eq := hbackoff
  ascending := by
    rw [jobIds_seedQueue]
    exact firstJobs_ascending hnow.lt

section

variable {engine : Engine} {hbackoff : engine.backoff = .zero} {selected : StrategyKind}
  {builds runners : Nat} {now : Instant} {hnow : Represents now builds}

theorem jobIds_workload :
    (workload engine hbackoff selected runners hnow).builds.map (·.jobId) = firstJobs builds :=
  jobIds_seedQueue _ _

theorem length_workload :
    (workload engine hbackoff selected runners hnow).builds.length = builds := by
  change ((List.range builds).map _).length = builds
  rw [List.length_map, List.length_range]

theorem drained_of_finished {taken : Nat} {queue : List QueuedBuild} {crew : List (Worker × Nat)}
    (h : (workload engine hbackoff selected runners hnow).Ongoing taken sim queue crew)
    (hlength : crew.length = runners) (hrunners : 0 < runners)
    (hfinished : sim.isFinished = true) : sim.Drained selected builds runners := by
  have hcrew : crew ≠ [] := List.ne_nil_of_length_pos (by omega)
  obtain ⟨hreport, hjobs⟩ := h.report_of_finished hcrew hfinished
  obtain ⟨conflicts, hconflicts, hmetrics⟩ := h.metrics_of_finished hcrew hfinished
  rw [length_workload] at hreport
  rw [length_workload, hlength] at hmetrics
  exact {
    length := by rw [h.workers, List.length_map, hlength]
    stopped := fun w hw ↦ by
      rw [h.workers] at hw
      obtain ⟨x, hx, rfl⟩ := List.mem_map.1 hw
      exact (h.stopped_of_finished hfinished hx).1
    report := hreport
    assignments := hjobs.trans jobIds_workload
    metrics := ⟨conflicts, hmetrics⟩
    alone := fun halone ↦ by
      refine ⟨?_, (h.claimed_of_alone halone hfinished).trans jobIds_workload⟩
      rw [hmetrics]
      exact hconflicts halone }

end

/-- With an engine that holds no builds back, a simulation drains its store, whoever has the next
turn, as long as the clocks do not go back before the seed and no poll times out. There are only so
many turns that workers at work can take, none of them fails, and when all of them have stopped, the
builds were assigned, each once. If every worker gets a turn again and again, they do stop. One
worker after the other, they stop within the turns that the simulation gives, unless polls time out
at once. -/
theorem drains_every_build (engine : Engine) (hbackoff : engine.backoff = .zero)
    (selected : StrategyKind) (builds : Nat) {runners : Nat} (hrunners : 0 < runners)
    {now : Instant} (hnow : Represents now builds) :
    ∃ store, seed now builds = .ok store ∧
      let start := ofStore engine selected store runners
      (∀ schedule : List Turn, (∀ turn ∈ schedule, now ≤ turn.2.time) →
        start.inTime schedule = true →
          start.turnsTaken schedule ≤ (2 * builds + 5) * (runners + builds) ∧
          (start.run schedule).failure? = none ∧
          ((start.run schedule).isFinished = true →
            (start.run schedule).Drained selected builds runners)) ∧
      (∀ turns : Nat → Turn, (∀ k, now ≤ (turns k).2.time) →
        (∀ k, start.inTime (firstTurns turns k) = true) →
          (∀ i < runners, ∀ k, ∃ j, k ≤ j ∧ (turns j).1 = i) →
            ∃ k, (start.run (firstTurns turns k)).isFinished = true) ∧
      (4 < engine.pollTimeout.nanos → ∃ sim : Simulation, sim.Drained selected builds runners ∧
        simulate engine selected runners builds now =
          .ok ⟨selected, sim.assignments, sim.metrics⟩) := by
  obtain ⟨store, hseed, hseeded⟩ := exists_seed now hnow.lt
  refine ⟨store, hseed, ?_⟩
  intro start
  let load := workload engine hbackoff selected runners hnow
  have hstart : load.Ongoing 0 start load.builds (load.opening runners) :=
    load.ongoing_ofStore (hseeded.remains hnow) (seedRunner_suits hnow) id
  have hworkers : start.workers.length = runners := by
    change ((List.range runners).map _).length = runners
    rw [List.length_map, List.length_range]
  have hbuilds : load.builds.length = builds := length_workload
  have hrun (schedule : List Turn) (htimes : ∀ turn ∈ schedule, now ≤ turn.2.time)
      (hintime : start.inTime schedule = true) : ∃ queue crew, crew.length = runners ∧
        load.Ongoing (start.turnsTaken schedule) (start.run schedule) queue crew := by
    obtain ⟨queue, crew, h⟩ := hstart.run htimes hintime
    rw [Nat.zero_add] at h
    refine ⟨queue, crew, ?_, h⟩
    rw [← hworkers, ← length_run start schedule, h.workers, List.length_map]
  have hbound (schedule : List Turn) (htimes : ∀ turn ∈ schedule, now ≤ turn.2.time)
      (hintime : start.inTime schedule = true) :
      start.turnsTaken schedule ≤ (2 * builds + 5) * (runners + builds) := by
    obtain ⟨queue, crew, hlength, h⟩ := hrun schedule htimes hintime
    have hcollected := h.collected_le
    calc
      _ ≤ load.turnsPerPoll * (crew.length + Workload.collected crew) :=
        (Nat.le_add_right _ _).trans h.turns
      _ ≤ load.turnsPerPoll * (crew.length + load.builds.length) :=
        Nat.mul_le_mul_left _ (Nat.add_le_add_left hcollected _)
      _ = _ := by
        unfold Workload.turnsPerPoll
        rw [hlength, hbuilds]
  refine ⟨fun schedule htimes hintime ↦ ⟨hbound schedule htimes hintime, ?_⟩,
    fun turns htimes hintime hfair ↦ ?_, fun htimeout ↦ ?_⟩
  · obtain ⟨queue, crew, hlength, h⟩ := hrun schedule htimes hintime
    exact ⟨h.failure?_eq_none, drained_of_finished h hlength hrunners⟩
  · refine exists_finished (fun k ↦ hbound _ (fun turn hturn ↦ ?_) (hintime k)) ?_
    · obtain ⟨j, -, rfl⟩ := List.mem_map.1 hturn
      exact htimes j
    · rw [hworkers]
      exact hfair
  · obtain ⟨schedule, htimes, hintime, hfinished, hdrain⟩ :=
      endsWithin_enoughTurns hbackoff htimeout selected hbuilds (seedRunner_suits hnow)
        (hseeded.remains hnow)
    obtain ⟨queue, crew, hlength, h⟩ := hrun schedule htimes hintime
    have hdrained : (start.run schedule).Drained selected builds runners :=
      drained_of_finished h hlength hrunners hfinished
    refine ⟨start.run schedule, hdrained, ?_⟩
    unfold simulate
    rw [hseed]
    change (drain _ _ start).report builds = _
    rw [hdrain]
    exact hdrained.report

/-- Two runners take turns, and only one of them comes to have the build. -/
theorem drains_every_build_twoRunners :
    let engine : Engine := ⟨true, .ofSeconds 30, .zero⟩
    let schedule : List Turn := (List.range 24).map fun k ↦ (k % 2, ⟨0, default⟩)
    engine.backoff = .zero ∧ 0 < 2 ∧ Represents default 1 ∧
    ∃ store, seed default 1 = .ok store ∧
      let start := ofStore engine .projection store 2
      start.inTime schedule = true ∧ (start.run schedule).isFinished = true ∧
      start.turnsTaken schedule ≤ 21 ∧ (start.run schedule).Drained .projection 1 2 ∧
      ∃ sim : Simulation, sim.Drained .projection 1 2 ∧
        simulate engine .projection 2 1 default =
          .ok ⟨.projection, sim.assignments, sim.metrics⟩ := by
  intro engine schedule
  have hnow : Represents default 1 := rfl
  have hrunners : 0 < 2 := by decide
  obtain ⟨store, hseed, hruns, -, hsimulate⟩ :=
    drains_every_build engine rfl .projection 1 hrunners hnow
  have hend : (seed default 1).toOption.all (fun store ↦
      (ofStore engine .projection store 2).inTime schedule &&
        ((ofStore engine .projection store 2).run schedule).isFinished) = true := by
    decide +kernel
  rw [hseed, Except.toOption, Option.all_some, Bool.and_eq_true] at hend
  have htimes : ∀ turn ∈ schedule, default ≤ turn.2.time := by
    intro turn hturn
    obtain ⟨k, -, rfl⟩ := List.mem_map.1 hturn
    exact Int.le_refl _
  obtain ⟨hturns, -, hdrained⟩ := hruns schedule htimes hend.1
  exact ⟨rfl, hrunners, hnow, store, hseed, hend.1, hend.2, hturns, hdrained hend.2,
    hsimulate (by decide)⟩

end Simulation

end BuildQueue
