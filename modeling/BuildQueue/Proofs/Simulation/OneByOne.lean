import BuildQueue.Proofs.Simulation.Crew

/-!
# One worker after the other

If the next turn is always that of the first worker still at work, nobody changes the store between
the snapshot of a poll and its claim. A poll then takes seven turns to bring a build and five to
bring nothing, so the turns that a simulation gives are enough.
-/

namespace BuildQueue

/-- The moment of the next turn. -/
def Moment.next (moment : Moment) : Moment := ⟨moment.tick + 1, moment.time.shift 1⟩

theorem Moment.le_next {now : Instant} {moment : Moment} (h : now ≤ moment.time) :
    now ≤ moment.next.time :=
  Int.le_trans h (moment.time.le_shift (by decide))

namespace Simulation

/-- From this moment on, so many turns of one worker after the other bring the simulation to its
end, and in time. -/
def EndsWithin (turns : Nat) (moment : Moment) (sim : Simulation) : Prop :=
  ∃ schedule : List Turn, (∀ turn ∈ schedule, moment.time ≤ turn.2.time) ∧
    sim.inTime schedule = true ∧ (sim.run schedule).isFinished = true ∧
    drain turns moment sim = sim.run schedule

variable {sim : Simulation} {turns : Nat} {moment : Moment}

theorem EndsWithin.of_isFinished (h : sim.isFinished = true) (turns : Nat) (moment : Moment) :
    sim.EndsWithin turns moment := by
  have hnobody : sim.workers.findIdx? Worker.isAtWork = none := by
    unfold isFinished at h
    rw [List.all_eq_true] at h
    rw [List.findIdx?_eq_none_iff]
    exact fun w hw ↦ by simpa using h w hw
  refine ⟨[], by simp, rfl, h, ?_⟩
  cases turns with
  | zero => rfl
  | succ turns =>
    unfold drain
    rw [hnobody]
    rfl

theorem EndsWithin.of_step {i : Nat} (hfirst : sim.workers.findIdx? Worker.isAtWork = some i)
    (hintime : sim.seesTimeout i = false) (h : (sim.step i moment).EndsWithin turns moment.next) :
    sim.EndsWithin (turns + 1) moment := by
  obtain ⟨schedule, htimes, hrest, hfinished, hdrain⟩ := h
  refine ⟨(i, moment) :: schedule, fun turn hturn ↦ ?_, ?_, hfinished, ?_⟩
  · cases List.mem_cons.1 hturn with
    | inl hnow =>
      rw [hnow]
      exact Int.le_refl _
    | inr hlater => exact Int.le_trans (Moment.le_next (Int.le_refl _)) (htimes turn hlater)
  · unfold inTime
    rw [hintime, hrest]
    rfl
  · unfold drain
    rw [hfirst]
    exact hdrain

/-! ## The turns of one worker -/

/-- With this store a worker stands between workers before and after it. -/
def withWorker (sim : Simulation) (before after : List Worker) (s : Store) (w : Worker) :
    Simulation :=
  { sim with store := s, workers := before ++ w :: after }

variable {before after : List Worker} {s : Store} {runner : Runner} {claimed : List Assignment}

theorem getElem?_withWorker {w : Worker} :
    (sim.withWorker before after s w).workers[before.length]? = some w := by
  change (before ++ w :: after)[before.length]? = _
  rw [List.getElem?_append_right (Nat.le_refl _), Nat.sub_self]
  rfl

section

variable (hbefore : ∀ w ∈ before, w.isAtWork = false)

include hbefore

theorem findIdx?_withWorker {w : Worker} (hw : w.isAtWork = true) :
    (sim.withWorker before after s w).workers.findIdx? Worker.isAtWork = some before.length := by
  have hnobody : before.findIdx? Worker.isAtWork = none := List.findIdx?_eq_none_iff.2 hbefore
  change (before ++ w :: after).findIdx? _ = _
  rw [List.findIdx?_append, hnobody, List.findIdx?_cons, hw]
  simp

/-- A request of the worker takes a turn. -/
theorem endsWithin_ask {q : Request} {next : Reply q → Program (Report PollOutcome)}
    (h : EndsWithin turns moment.next (sim.withWorker before after
      (s.handle moment sim.selected q).2
      ⟨runner, .polling (next (s.handle moment sim.selected q).1), claimed⟩)) :
    EndsWithin (turns + 1) moment
      (sim.withWorker before after s ⟨runner, .polling (.ask q next), claimed⟩) := by
  refine .of_step (findIdx?_withWorker hbefore rfl) ?_ ?_
  · unfold seesTimeout
    rw [getElem?_withWorker]
    rfl
  · unfold step
    rw [getElem?_withWorker]
    change EndsWithin turns moment.next
      { withWorker .. with store := _, workers := (before ++ _ :: after).set before.length _ }
    rw [List.set_append_right _ _ (Nat.le_refl _), Nat.sub_self]
    exact h

/-- To take over what a poll came to takes a turn. -/
theorem endsWithin_done {report : Report PollOutcome} (hintime : report.metrics.timeouts = 0)
    (h : EndsWithin turns moment.next
      ({ sim with metrics := sim.metrics + report.metrics }.withWorker before after s
        (Worker.finishPoll sim.engine ⟨runner, .polling (.done report), claimed⟩ report.result))) :
    EndsWithin (turns + 1) moment
      (sim.withWorker before after s ⟨runner, .polling (.done report), claimed⟩) := by
  refine .of_step (findIdx?_withWorker hbefore rfl) ?_ ?_
  · unfold seesTimeout
    rw [getElem?_withWorker]
    change (report.metrics.timeouts != 0) = false
    rw [hintime]
    rfl
  · unfold step
    rw [getElem?_withWorker]
    change EndsWithin turns moment.next
      { withWorker .. with workers := (before ++ _ :: after).set before.length _, metrics := _ }
    rw [List.set_append_right _ _ (Nat.le_refl _), Nat.sub_self]
    exact h

/-! ## The turns of one poll -/

variable {now : Instant} {queue : List QueuedBuild} (hbackoff : sim.engine.backoff = .zero)
  (hnow : now ≤ moment.time)

include hbackoff hnow

/-- A poll takes four turns up to its pass over all that is left. -/
theorem endsWithin_poll (hrunner : runner.Suits now queue) (hs : s.Remains now queue)
    (h : ∀ k : ClaimPass → Program (Report PollOutcome), Reports k →
      EndsWithin turns moment.next.next.next.next (sim.withWorker before after s
        ⟨runner, .polling ((Feed.ofBuilds queue .done).claimFirst runner.id
          (moment.tick + sim.engine.pollTimeout.nanos) 0 >>= k), claimed⟩)) :
    EndsWithin (turns + 4) moment
      (sim.withWorker before after s ⟨runner, .polling (Worker.poll sim.engine runner), claimed⟩) := by
  have hcutoff : now ≤ sim.engine.defaultCutoff moment.next.time := by
    unfold Engine.defaultCutoff
    rw [hbackoff, Instant.before_zero]
    exact Moment.le_next hnow
  obtain ⟨k, hk, hclaim⟩ := sim.engine.claim_eq .everything
    ⟨runner, sim.engine.defaultCutoff moment.next.time⟩
    (moment.tick + sim.engine.pollTimeout.nanos)
  unfold Worker.poll
  rw [hrunner.poll_eq]
  apply endsWithin_ask hbefore
  apply endsWithin_ask hbefore
  change EndsWithin (turns + 2) _ (sim.withWorker _ _ _ ⟨_, .polling (sim.engine.claim .everything
    ⟨runner, sim.engine.defaultCutoff moment.next.time⟩
    (moment.tick + sim.engine.pollTimeout.nanos)), _⟩)
  rw [hclaim]
  apply endsWithin_ask hbefore
  apply endsWithin_ask hbefore
  change EndsWithin turns _ (sim.withWorker _ _ _ ⟨_, .polling ((Eligibility.applyFeed _
    (Feed.ofResult (s.scan sim.selected .everything _))).claimFirst _ _ _ >>= _), _⟩)
  rw [hrunner.applyFeed_scan hs sim.selected hcutoff]
  exact h (k sim.selected) (hk sim.selected)

/-- With nothing left a poll takes five turns, and the worker stops. -/
theorem endsWithin_poll_nothing (hrunner : runner.Suits now []) (hs : s.Remains now [])
    (h : ∀ metrics moment, now ≤ moment.time → EndsWithin turns moment
      ({ sim with metrics }.withWorker before after s ⟨runner, .stopped, claimed⟩)) :
    EndsWithin (turns + 5) moment
      (sim.withWorker before after s ⟨runner, .polling (Worker.poll sim.engine runner), claimed⟩) := by
  apply endsWithin_poll hbefore hbackoff hnow hrunner hs
  intro k hk
  change EndsWithin (turns + 1) _ (sim.withWorker _ _ _ ⟨_, .polling (k (.ok (.exhausted 0))), _⟩)
  rw [hk]
  apply endsWithin_done hbefore rfl
  apply h
  iterate 5 apply Moment.le_next
  exact hnow

/-- The first build that is left takes seven turns, and the worker polls again. -/
theorem endsWithin_poll_first {build : QueuedBuild} (hrunner : runner.Suits now (build :: queue))
    (hs : s.Remains now (build :: queue)) (htimeout : 4 < sim.engine.pollTimeout.nanos)
    (h : ∀ metrics s claimed moment, s.Remains now queue → now ≤ moment.time →
      EndsWithin turns moment ({ sim with metrics }.withWorker before after s
        ⟨runner, .polling (Worker.poll sim.engine runner), claimed⟩)) :
    EndsWithin (turns + 7) moment
      (sim.withWorker before after s ⟨runner, .polling (Worker.poll sim.engine runner), claimed⟩) := by
  apply endsWithin_poll hbefore hbackoff hnow hrunner hs
  intro k hk
  apply endsWithin_ask hbefore
  have hintime : ¬ moment.tick + sim.engine.pollTimeout.nanos ≤ moment.tick + 4 :=
    Nat.not_le_of_lt (Nat.add_lt_add_left htimeout _)
  change EndsWithin (turns + 2) _ (sim.withWorker _ _ s
    ⟨_, .polling ((if moment.tick + sim.engine.pollTimeout.nanos ≤ moment.tick + 4 then _
      else _) >>= k), _⟩)
  rw [if_neg hintime]
  apply endsWithin_ask hbefore
  obtain ⟨hgiven, hrest⟩ := hs.tryClaim_first runner.id moment.next.next.next.next.next.time
  have hreply : (s.handle moment.next.next.next.next.next sim.selected
      (.claim build.jobId runner.id)).1 = .ok (some ⟨build.jobId, runner.id, _⟩) :=
    congrArg Except.ok hgiven
  rw [hreply]
  change EndsWithin (turns + 1) _ (sim.withWorker _ _ _
    ⟨_, .polling (k (.ok (.assigned ⟨build.jobId, runner.id, _⟩ 0))), _⟩)
  rw [hk]
  apply endsWithin_done hbefore rfl
  apply h _ _ _ _ hrest
  iterate 7 apply Moment.le_next
  exact hnow

/-! ## The turns of all -/

/-- What is left takes seven turns for each build and five for the end. -/
theorem endsWithin_polls (htimeout : 4 < sim.engine.pollTimeout.nanos)
    (hrunner : runner.Suits now queue) (hs : s.Remains now queue)
    (h : ∀ metrics s claimed moment, s.Remains now [] → now ≤ moment.time →
      EndsWithin turns moment ({ sim with metrics }.withWorker before after s
        ⟨runner, .stopped, claimed⟩)) :
    EndsWithin (turns + 5 + 7 * queue.length) moment
      (sim.withWorker before after s ⟨runner, .polling (Worker.poll sim.engine runner), claimed⟩) := by
  induction queue generalizing sim s claimed moment with
  | nil =>
    exact endsWithin_poll_nothing hbefore hbackoff hnow hrunner hs fun metrics moment hnow ↦
      h metrics s claimed moment hs hnow
  | cons build queue ih =>
    have hrest : runner.Suits now queue := hrunner.of_subset (List.subset_cons_self _ _)
    rw [List.length_cons, Nat.mul_succ, ← Nat.add_assoc]
    apply endsWithin_poll_first hbefore hbackoff hnow hrunner hs htimeout
    intro metrics s claimed moment hs hnow
    exact ih hbackoff hnow htimeout hrest hs h

/-- Five turns for each worker and seven for each build that is left bring the simulation to its
end. -/
theorem endsWithin_workers (turns : Nat) (htimeout : 4 < sim.engine.pollTimeout.nanos)
    {runners : List Runner} (hrunners : ∀ r ∈ runners, r.Suits now queue)
    (hs : s.Remains now queue) : EndsWithin (turns + 5 * runners.length + 7 * queue.length) moment
      { sim with store := s, workers := before ++ runners.map (Worker.start sim.engine) } := by
  induction runners generalizing sim before queue s moment with
  | nil =>
    apply EndsWithin.of_isFinished
    unfold isFinished
    rw [List.all_eq_true]
    intro w hw
    rw [List.map_nil, List.append_nil] at hw
    rw [hbefore w hw]
    rfl
  | cons r runners ih =>
    have hothers (v : Runner) (hv : v ∈ runners) : v.Suits now [] :=
      (hrunners v (List.mem_cons_of_mem _ hv)).of_subset (List.nil_subset _)
    rw [List.length_cons, Nat.mul_succ, ← Nat.add_assoc]
    apply endsWithin_polls hbefore hbackoff hnow htimeout (hrunners r List.mem_cons_self) hs
    intro metrics s claimed moment hs hnow
    have hstopped : ∀ w ∈ before ++ [⟨r, .stopped, claimed⟩], w.isAtWork = false := by
      intro w hw
      cases List.mem_append.1 hw with
      | inl hw => exact hbefore w hw
      | inr hw =>
        rw [List.mem_singleton.1 hw]
        rfl
    let counted : Simulation := { sim with metrics }
    have hcounted : counted.engine.backoff = .zero := hbackoff
    have hrest := ih hstopped hcounted hnow htimeout hothers hs
    rw [List.append_assoc] at hrest
    exact hrest

end

/-- The turns that a simulation gives bring it to its end. -/
theorem endsWithin_enoughTurns {engine : Engine} (hbackoff : engine.backoff = .zero)
    (htimeout : 4 < engine.pollTimeout.nanos) (selected : StrategyKind) {runners builds : Nat}
    {now : Instant} {queue : List QueuedBuild} (hqueue : queue.length = builds)
    (hrunners : ∀ i, (seedRunner i).Suits now queue) {s : Store} (hs : s.Remains now queue) :
    EndsWithin (enoughTurns runners builds) ⟨0, now⟩ (ofStore engine selected s runners) := by
  obtain ⟨turns, hturns⟩ : ∃ turns, enoughTurns runners builds =
      turns + 5 * ((List.range runners).map seedRunner).length + 7 * queue.length := by
    unfold enoughTurns
    rw [List.length_map, List.length_range, hqueue]
    exact ⟨11 * runners + 9 * builds + 16, by omega⟩
  have hall : ∀ r ∈ (List.range runners).map seedRunner, r.Suits now queue := by
    intro r hr
    obtain ⟨i, -, rfl⟩ := List.mem_map.1 hr
    exact hrunners i
  rw [hturns]
  have hworkers : (ofStore engine selected s runners).workers =
      [] ++ ((List.range runners).map seedRunner).map (Worker.start engine) := by
    rw [List.nil_append, List.map_map]
    rfl
  have hends : EndsWithin _ ⟨0, now⟩ { ofStore engine selected s runners with
      workers := [] ++ ((List.range runners).map seedRunner).map (Worker.start engine) } :=
    endsWithin_workers (by simp) hbackoff (Int.le_refl _) turns htimeout hall hs
  rw [← hworkers] at hends
  exact hends

end Simulation

end BuildQueue
