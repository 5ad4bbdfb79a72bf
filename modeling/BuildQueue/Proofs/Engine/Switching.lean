import BuildQueue.Proofs.Engine.Alone

/-!
# Switching is invisible

In a session writes, polls and depths follow one another, and strategies are selected and the
projection comes and goes between and during them. With failover on, leaving all of this out and
reading the direct scan throughout changes no answer and no build.
-/

namespace BuildQueue

/-- What is done next in a session. -/
inductive SessionStep where
  | write (op : StoreOperation)
  | select (strategy : StrategyKind)
  | poll (runner : Runner) (options : PollOptions) (course : Course)
  | queueDepth (runner : Runner) (course : Course)

/-- What a call in a session answers. -/
inductive SessionAnswer where
  | polled (result : Except QueueError PollOutcome)
  | counted (result : Except QueueError Nat)

/-- A store with the selected strategy and the answers so far. -/
structure Session where
  store : Store
  selected : StrategyKind
  answers : List SessionAnswer

namespace Session

def start (selected : StrategyKind) : Session := ⟨.empty, selected, []⟩

def step (engine : Engine) (t : Session) : SessionStep → Session
  | .write op => { t with store := (t.store.apply op).2 }
  | .select strategy => { t with selected := strategy }
  | .poll runner options course =>
    let (report, d) := (engine.poll runner options).run course.handle ⟨t.store, t.selected, 0, 0⟩
    ⟨d.store, d.selected, t.answers ++ [.polled report.result]⟩
  | .queueDepth runner course =>
    let (report, d) := (engine.queueDepth runner).run course.handle ⟨t.store, t.selected, 0, 0⟩
    ⟨d.store, d.selected, t.answers ++ [.counted report.result]⟩

def run (engine : Engine) (selected : StrategyKind) (steps : List SessionStep) : Session :=
  steps.foldl (step engine) (start selected)

end Session

/-- The step without any switching, if something is left of it; clocks read what they read. -/
def SessionStep.hush : SessionStep → Option SessionStep
  | .write (.setProjectionAvailable _) => none
  | .select _ => none
  | .poll runner options course => some (.poll runner options (.steady course.clock))
  | .queueDepth runner course => some (.queueDepth runner (.steady course.clock))
  | .write op => some (.write op)

namespace Store

variable {s : Store}

theorem Sound.handOut (h : s.Sound) (clock : Nat → Moment) (n : Nat) (deadline : Tick)
    (runner : RunnerId) (builds : List QueuedBuild) :
    (s.handOut clock n deadline runner builds).2.Sound := by
  cases builds with
  | nil => exact h
  | cons build builds =>
    rw [handOut_cons]
    split
    · exact h
    · exact h.tryClaim build.jobId runner (clock (n + 1)).time

theorem handOut_setProjectionAvailable (s : Store) (available : Bool) (clock : Nat → Moment)
    (n : Nat) (deadline : Tick) (runner : RunnerId) (builds : List QueuedBuild) :
    (s.setProjectionAvailable available).handOut clock n deadline runner builds =
      ((s.handOut clock n deadline runner builds).1,
        (s.handOut clock n deadline runner builds).2.setProjectionAvailable available) := by
  cases builds with
  | nil => rfl
  | cons build builds =>
    rw [handOut_cons, handOut_cons]
    split
    · rfl
    · rw [tryClaim_setProjectionAvailable]

end Store

namespace Engine

theorem sound_pollAlone (engine : Engine) (runner : Runner) (options : PollOptions)
    (clock : Nat → Moment) {s : Store} (h : s.Sound) :
    (engine.pollAlone runner options clock s).2.Sound := by
  unfold pollAlone
  split
  · exact h.handOut ..
  · exact h

/-- What a poll comes to does not depend on whether the projection is within reach. -/
theorem pollAlone_setProjectionAvailable (engine : Engine) (runner : Runner)
    (options : PollOptions) (clock : Nat → Moment) (s : Store) (available : Bool) :
    engine.pollAlone runner options clock (s.setProjectionAvailable available) =
      ((engine.pollAlone runner options clock s).1,
        (engine.pollAlone runner options clock s).2.setProjectionAvailable available) := by
  unfold pollAlone
  split
  · exact Store.handOut_setProjectionAvailable s available ..
  · rfl

end Engine

namespace Session

/-- A session with the same builds and answers as another one, which is on the direct scan. -/
structure Mirrors (noisy calm : Session) : Prop where
  store : ∃ available, noisy.store = calm.store.setProjectionAvailable available
  selected : calm.selected = .directScan
  answers : noisy.answers = calm.answers
  sound : calm.store.Sound

namespace Mirrors

variable {noisy calm : Session} {engine : Engine}

theorem start (selected : StrategyKind) :
    Mirrors (Session.start selected) (Session.start .directScan) where
  store := ⟨true, rfl⟩
  selected := rfl
  answers := rfl
  sound := Store.sound_empty

theorem noisy_sound (h : Mirrors noisy calm) : noisy.store.Sound := by
  obtain ⟨available, hstore⟩ := h.store
  rw [hstore]
  exact h.sound.of_eq rfl rfl rfl

theorem write (h : Mirrors noisy calm) {op : StoreOperation}
    (hop : ∀ available, op ≠ .setProjectionAvailable available) :
    Mirrors (noisy.step engine (.write op)) (calm.step engine (.write op)) where
  store := by
    obtain ⟨available, hstore⟩ := h.store
    refine ⟨available, ?_⟩
    change (noisy.store.apply op).2 = _
    rw [hstore, Store.apply_setProjectionAvailable _ _ hop]
    rfl
  selected := h.selected
  answers := h.answers
  sound := h.sound.apply op

theorem setProjectionAvailable (h : Mirrors noisy calm) (available : Bool) :
    Mirrors (noisy.step engine (.write (.setProjectionAvailable available))) calm where
  store := by
    obtain ⟨before, hstore⟩ := h.store
    refine ⟨available, ?_⟩
    change noisy.store.setProjectionAvailable available = _
    rw [hstore]
    rfl
  selected := h.selected
  answers := h.answers
  sound := h.sound

theorem select (h : Mirrors noisy calm) (strategy : StrategyKind) :
    Mirrors (noisy.step engine (.select strategy)) calm :=
  ⟨h.store, h.selected, h.answers, h.sound⟩

theorem poll (h : Mirrors noisy calm) (hfailover : engine.failover = true) (runner : Runner)
    (options : PollOptions) (course : Course) :
    Mirrors (noisy.step engine (.poll runner options course))
      (calm.step engine (.poll runner options (.steady course.clock))) := by
  obtain ⟨outcome, hresult, hout, n, hat⟩ :=
    Course.leads_poll course noisy.selected h.noisy_sound (.inl hfailover) runner options
  obtain ⟨outcome', hresult', hout', n', hat'⟩ :=
    Course.leads_poll (.steady course.clock) calm.selected h.sound (.inl hfailover) runner options
  obtain ⟨available, hstore⟩ := h.store
  have hsteady : (Course.steady course.clock).IsSteady := ⟨fun _ ↦ rfl, rfl⟩
  obtain ⟨hcalm, hselected⟩ := hat'.steady hsteady
  obtain ⟨later, hnoisy⟩ := hat.store
  have hsame := engine.pollAlone_setProjectionAvailable runner options course.clock calm.store
    available
  constructor
  · refine ⟨later, ?_⟩
    change Desk.store _ = Store.setProjectionAvailable (Desk.store _) later
    rw [hnoisy, hcalm, hstore, hsame]
    rfl
  · exact hselected.trans h.selected
  · change noisy.answers ++ [.polled _] = calm.answers ++ [.polled _]
    rw [hresult, hresult', hout, hout', hstore, hsame, h.answers]
    rfl
  · change Store.Sound (Desk.store _)
    rw [hcalm]
    exact engine.sound_pollAlone runner options _ h.sound

theorem queueDepth (h : Mirrors noisy calm) (hfailover : engine.failover = true) (runner : Runner)
    (course : Course) :
    Mirrors (noisy.step engine (.queueDepth runner course))
      (calm.step engine (.queueDepth runner (.steady course.clock))) := by
  obtain ⟨hresult, n, hat⟩ :=
    Course.leads_queueDepth course noisy.selected h.noisy_sound (.inl hfailover) runner
  obtain ⟨hresult', n', hat'⟩ :=
    Course.leads_queueDepth (.steady course.clock) calm.selected h.sound (.inl hfailover) runner
  obtain ⟨available, hstore⟩ := h.store
  have hsteady : (Course.steady course.clock).IsSteady := ⟨fun _ ↦ rfl, rfl⟩
  obtain ⟨hcalm, hselected⟩ := hat'.steady hsteady
  obtain ⟨later, hnoisy⟩ := hat.store
  constructor
  · refine ⟨later, ?_⟩
    change Desk.store _ = Store.setProjectionAvailable (Desk.store _) later
    rw [hnoisy, hcalm, hstore]
    rfl
  · exact hselected.trans h.selected
  · change noisy.answers ++ [.counted _] = calm.answers ++ [.counted _]
    rw [hresult, hresult', hstore, h.answers]
    rfl
  · change Store.Sound (Desk.store _)
    rw [hcalm]
    exact h.sound

/-- A step of the one session is a step of the other one, or none. -/
theorem step (h : Mirrors noisy calm) (hfailover : engine.failover = true) (step : SessionStep) :
    Mirrors (noisy.step engine step) (step.hush.toList.foldl (Session.step engine) calm) := by
  cases step with
  | write op =>
    cases op with
    | setProjectionAvailable available => exact h.setProjectionAvailable available
    | addNamespace id parent => exact h.write (by simp)
    | putProject project => exact h.write (by simp)
    | enqueue build => exact h.write (by simp)
    | setStatus job status => exact h.write (by simp)
    | tryClaim job runner now => exact h.write (by simp)
  | select strategy => exact h.select strategy
  | poll runner options course => exact h.poll hfailover runner options course
  | queueDepth runner course => exact h.queueDepth hfailover runner course

end Mirrors

/-- With failover on, a session with switches answers what it answers without them on the direct
scan, and leaves the same builds. -/
theorem switching_invisible (engine : Engine) (hfailover : engine.failover = true)
    (selected : StrategyKind) (steps : List SessionStep) :
    (run engine selected steps).answers =
        (run engine .directScan (steps.filterMap SessionStep.hush)).answers ∧
      (run engine selected steps).store.builds =
        (run engine .directScan (steps.filterMap SessionStep.hush)).store.builds := by
  have hmirrors : Mirrors (run engine selected steps)
      (run engine .directScan (steps.filterMap SessionStep.hush)) := by
    unfold run
    induction steps using List.reverseRecOn with
    | nil => exact .start selected
    | append_singleton steps step ih =>
      have hhush : [step].filterMap SessionStep.hush = step.hush.toList := by
        cases hstep : step.hush <;> simp [hstep]
      rw [List.foldl_append, List.filterMap_append, List.foldl_append, hhush]
      exact ih.step hfailover step
  obtain ⟨available, hstore⟩ := hmirrors.store
  refine ⟨hmirrors.answers, ?_⟩
  rw [hstore]
  rfl

/-- One build, and a poll whose snapshot of the projection breaks off at once while the projection
goes out of reach. -/
def troubled : List SessionStep :=
  [.write (.putProject (.opened ⟨10⟩ ⟨1⟩)), .write (.enqueue ⟨⟨10⟩, .empty, false, default⟩),
    .select .projection,
    .poll ⟨⟨7⟩, .everything, .empty, true, true, true⟩ ⟨none, some default⟩
      { clock := fun _ ↦ ⟨0, default⟩
        switches := fun i ↦ if i = 2 then [.setProjectionAvailable false] else []
        breakOff := some (0, .projectionUnavailable) }]

theorem switching_invisible_troubled :
    let engine : Engine := ⟨true, .ofSeconds 1, .zero⟩
    engine.failover = true ∧
      (run engine .projection troubled).answers =
        (run engine .directScan (troubled.filterMap SessionStep.hush)).answers ∧
      (run engine .projection troubled).store.builds =
        (run engine .directScan (troubled.filterMap SessionStep.hush)).store.builds := by
  intro engine
  have hfailover : engine.failover = true := rfl
  exact ⟨hfailover, switching_invisible engine hfailover .projection troubled⟩

end Session

end BuildQueue
