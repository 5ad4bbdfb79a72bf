import BuildQueue.Proofs.Store.Scope
import BuildQueue.Proofs.Store.Service
import BuildQueue.Proofs.Store.Views

/-!
# Calls that are alone at a store

While a call is alone at a store nobody else writes builds, but clocks go on, strategies may be
selected, the projection may go out of reach and come back, and a snapshot of the projection may
break off. None of this changes what the call learns of projects and what the direct scan shows, and
what the projection shows is the same queue, the beginning of it or an error.
-/

namespace BuildQueue

namespace Program

variable {α β σ : Type} {handle : Handler σ} {s : σ}

/-- Run alone, the program ends with a result and a state of this kind. -/
def Leads (handle : Handler σ) (Q : α → σ → Prop) (p : Program α) (s : σ) : Prop :=
  Q (p.run handle s).1 (p.run handle s).2

theorem Leads.imp {Q Q' : α → σ → Prop} {p : Program α} (h : p.Leads handle Q s)
    (hQ : ∀ a s, Q a s → Q' a s) : p.Leads handle Q' s := hQ _ _ h

theorem Leads.and {Q Q' : α → σ → Prop} {p : Program α} (h : p.Leads handle Q s)
    (h' : p.Leads handle Q' s) : p.Leads handle (fun a s ↦ Q a s ∧ Q' a s) s := And.intro h h'

/-- The result is the one that the program has when it is run. -/
theorem leads_result (handle : Handler σ) (p : Program α) (s : σ) :
    p.Leads handle (fun a _ ↦ a = (p.run handle s).1) s := rfl

theorem leads_done {a : α} {Q : α → σ → Prop} :
    (Program.done a).Leads handle Q s ↔ Q a s := Iff.rfl

theorem leads_ask {q : Request} {next : Reply q → Program α} {Q : α → σ → Prop} :
    (Program.ask q next).Leads handle Q s ↔
      (next (handle q s).1).Leads handle Q (handle q s).2 := Iff.rfl

theorem leads_bind {p : Program α} {f : α → Program β} {Q : β → σ → Prop} :
    (p >>= f).Leads handle Q s ↔
      p.Leads handle (fun a s ↦ (f a).Leads handle Q s) s := by
  unfold Leads
  rw [run_bind]

end Program

namespace Feed

/-- The feed up to so many items, and then an error. -/
def breakOff (e : QueueError) : Feed → Nat → Feed
  | .done, _ => .item (.error e) .done
  | .item _ _, 0 => .item (.error e) .done
  | .item entry rest, n + 1 => .item entry (rest.breakOff e n)
  | .wait nanos rest, n => .wait nanos (rest.breakOff e n)
  | .stall, _ => .stall
  | .statement s next, n => .statement s fun answer ↦ (next answer).breakOff e n

theorem breakOff_ofBuilds (e : QueueError) (builds : List QueuedBuild) (n : Nat) :
    (ofBuilds builds .done).breakOff e n = ofBuilds (builds.take n) (.item (.error e) .done) := by
  induction builds generalizing n with
  | nil => simp [ofBuilds, ofEntries, breakOff]
  | cons build builds ih =>
    cases n with
    | zero => rfl
    | succ n => exact congrArg (Feed.item (.ok build)) (ih n)

theorem filter_ofBuilds (p : QueuedBuild → Bool) (builds : List QueuedBuild) (rest : Feed) :
    (ofBuilds builds rest).filter p = ofBuilds (builds.filter p) (rest.filter p) := by
  induction builds with
  | nil => rfl
  | cons build builds ih =>
    change (if p build then _ else _) = _
    rw [List.filter_cons]
    split
    · exact congrArg (Feed.item (.ok build)) ih
    · exact ih

end Feed

/-- What is read of a queue: all of it or, where reading it may fail, the beginning of it and then
an error. -/
inductive Feed.Shows (mayFail : Prop) (queue : List QueuedBuild) : Feed → Prop
  | whole : Shows mayFail queue (.ofBuilds queue .done)
  | broken (h : mayFail) (n : Nat) (e : QueueError) (rest : Feed) :
    Shows mayFail queue (.ofBuilds (queue.take n) (.item (.error e) rest))

/-- What may be switched while a call runs. -/
inductive Switch where
  | select (strategy : StrategyKind)
  | setProjectionAvailable (available : Bool)

/-- What a call meets that is alone at a store. -/
structure Course where
  /-- The readings of the clocks, first to last. -/
  clock : Nat → Moment
  /-- What is switched before each request, first to last. -/
  switches : Nat → List Switch
  /-- How much of a snapshot the projection yields, and the error that comes then. -/
  breakOff : Option (Nat × QueueError)

/-- A store with the selected strategy, and how far a call has come. -/
structure Desk where
  store : Store
  selected : StrategyKind
  readings : Nat
  requests : Nat

def Desk.throw (d : Desk) : Switch → Desk
  | .select strategy => { d with selected := strategy }
  | .setProjectionAvailable available =>
    { d with store := d.store.setProjectionAvailable available }

/-- Switches change the strategy and whether the projection is within reach. -/
theorem Desk.throwAll_frame (switches : List Switch) (d : Desk) : ∃ available selected,
    switches.foldl Desk.throw d =
      { d with store := d.store.setProjectionAvailable available, selected } := by
  induction switches generalizing d with
  | nil => exact ⟨d.store.projectionAvailable, d.selected, rfl⟩
  | cons switch switches ih =>
    obtain ⟨available, selected, h⟩ := ih (d.throw switch)
    rw [List.foldl_cons, h]
    cases switch <;> exact ⟨_, _, rfl⟩

/-- How many readings of a clock a request takes. -/
def Request.readings : Request → Nat
  | .tick | .wallClock | .claim .. => 1
  | _ => 0

namespace Course

/-- Only clocks. -/
def steady (clock : Nat → Moment) : Course := ⟨clock, fun _ ↦ [], none⟩

/-- Nothing is switched and nothing breaks off. -/
def IsSteady (c : Course) : Prop := (∀ i, c.switches i = []) ∧ c.breakOff = none

/-- Snapshots of the projection break off. -/
def disturb (c : Course) : (q : Request) → Reply q → Reply q
  | .fetch .projection _ _, feed =>
    match c.breakOff with
    | some (n, e) => Feed.breakOff e feed n
    | none => feed
  | _, reply => reply

/-- Throws the switches that come before the next request. -/
def prepare (c : Course) (d : Desk) : Desk :=
  (c.switches d.requests).foldl Desk.throw { d with requests := d.requests + 1 }

def handle (c : Course) : Handler Desk := fun q d ↦
  let d := c.prepare d
  let (reply, store) := d.store.handle (c.clock d.readings) d.selected q
  (c.disturb q reply, { d with store, readings := d.readings + q.readings })

/-- The call has read the clocks so many times and the store is this one, but for the projection
being within reach or not; if nothing is switched it is this one, and the strategy is this one. -/
structure At (c : Course) (s : Store) (selected : StrategyKind) (n : Nat) (d : Desk) : Prop where
  store : ∃ available, d.store = s.setProjectionAvailable available
  readings : d.readings = n
  steady : c.IsSteady → d.store = s ∧ d.selected = selected

variable {c : Course} {s : Store} {selected : StrategyKind} {n : Nat} {d : Desk}

theorem At.start (c : Course) (s : Store) (selected : StrategyKind) :
    c.At s selected 0 ⟨s, selected, 0, 0⟩ :=
  ⟨⟨s.projectionAvailable, rfl⟩, rfl, fun _ ↦ ⟨rfl, rfl⟩⟩

theorem At.prepare (h : c.At s selected n d) : c.At s selected n (c.prepare d) := by
  obtain ⟨available, strategy, hprepare⟩ :=
    Desk.throwAll_frame (c.switches d.requests) { d with requests := d.requests + 1 }
  change c.prepare d = _ at hprepare
  constructor
  · obtain ⟨before, hstore⟩ := h.store
    refine ⟨available, ?_⟩
    rw [hprepare, hstore]
    rfl
  · rw [hprepare]
    exact h.readings
  · intro hsteady
    unfold Course.prepare
    rw [hsteady.1]
    exact h.steady hsteady

/-! ## What requests lead to -/

/-- A request that writes nothing is answered by the store as it is, and perhaps disturbed. -/
theorem At.ask (h : c.At s selected n d) {q : Request}
    (hq : q.operation? (c.clock n).time = none) : ∃ d',
      c.At s selected n d' ∧ c.At s selected (n + q.readings) (c.handle q d).2 ∧
        (c.handle q d).1 =
          c.disturb q (d'.store.handle (c.clock n) d'.selected q).1 := by
  have hprepared : c.At s selected n (c.prepare d) := h.prepare
  have hsame : ((c.prepare d).store.handle (c.clock n) (c.prepare d).selected q).2 =
      (c.prepare d).store := (Store.handle_of_operation?_eq_none _ _ _ hq).1
  have hhandle : c.handle q d =
      (c.disturb q ((c.prepare d).store.handle (c.clock (c.prepare d).readings)
          (c.prepare d).selected q).1,
        ⟨((c.prepare d).store.handle (c.clock (c.prepare d).readings) (c.prepare d).selected q).2,
          (c.prepare d).selected, (c.prepare d).readings + q.readings,
          (c.prepare d).requests⟩) := rfl
  rw [hprepared.readings, hsame] at hhandle
  refine ⟨c.prepare d, hprepared, ?_, by rw [hhandle]⟩
  rw [hhandle]
  exact ⟨hprepared.store, rfl, hprepared.steady⟩

section Requests

variable {α : Type} {Q : α → Desk → Prop}

theorem At.leads_tick (h : c.At s selected n d) {next : Tick → Program α}
    (hnext : ∀ d', c.At s selected (n + 1) d' → (next (c.clock n).tick).Leads c.handle Q d') :
    (Program.ask .tick next).Leads c.handle Q d := by
  obtain ⟨d', hd', hafter, hreply⟩ := h.ask (q := .tick) rfl
  rw [Program.leads_ask, hreply]
  exact hnext _ hafter

theorem At.leads_wallClock (h : c.At s selected n d) {next : Instant → Program α}
    (hnext : ∀ d', c.At s selected (n + 1) d' → (next (c.clock n).time).Leads c.handle Q d') :
    (Program.ask .wallClock next).Leads c.handle Q d := by
  obtain ⟨d', hd', hafter, hreply⟩ := h.ask (q := .wallClock) rfl
  rw [Program.leads_ask, hreply]
  exact hnext _ hafter

theorem At.leads_descendants (h : c.At s selected n d) (root : NamespaceId) (deadline : Deadline)
    {next : Option (Except QueueError (List ProjectId)) → Program α}
    (hnext : ∀ d', c.At s selected n d' →
      (next (some (.ok (s.descendantProjectIds root)))).Leads c.handle Q d') :
    (Program.ask (.descendants root deadline) next).Leads c.handle Q d := by
  obtain ⟨d', hd', hafter, hreply⟩ := h.ask (q := .descendants root deadline) rfl
  obtain ⟨available, hstore⟩ := hd'.store
  rw [Program.leads_ask, hreply, hstore]
  exact hnext _ hafter

theorem At.leads_projects (h : c.At s selected n d) (ids : List ProjectId) (deadline : Deadline)
    {next : Option (Except QueueError (List ProjectRecord)) → Program α}
    (hnext : ∀ d', c.At s selected n d' →
      (next (some (.ok (s.projectRecords ids)))).Leads c.handle Q d') :
    (Program.ask (.projects ids deadline) next).Leads c.handle Q d := by
  obtain ⟨d', hd', hafter, hreply⟩ := h.ask (q := .projects ids deadline) rfl
  obtain ⟨available, hstore⟩ := hd'.store
  rw [Program.leads_ask, hreply, hstore]
  exact hnext _ hafter

theorem At.leads_selection (h : c.At s selected n d) {next : StrategyKind → Program α}
    (hnext : ∀ strategy d', (c.IsSteady → strategy = selected) → c.At s selected n d' →
      (next strategy).Leads c.handle Q d') :
    (Program.ask .selection next).Leads c.handle Q d := by
  obtain ⟨d', hd', hafter, hreply⟩ := h.ask (q := .selection) rfl
  rw [Program.leads_ask, hreply]
  exact hnext d'.selected _ (fun hsteady ↦ (hd'.steady hsteady).2) hafter

theorem At.leads_claim (h : c.At s selected n d) (job : JobId) (runner : RunnerId)
    {next : Except QueueError (Option Assignment) → Program α}
    (hnext : ∀ d', c.At (s.tryClaim job runner (c.clock n).time).2 selected (n + 1) d' →
      (next (.ok (s.tryClaim job runner (c.clock n).time).1)).Leads c.handle Q d') :
    (Program.ask (.claim job runner) next).Leads c.handle Q d := by
  have hprepared : c.At s selected n (c.prepare d) := h.prepare
  obtain ⟨available, hstore⟩ := hprepared.store
  have hhandle : c.handle (.claim job runner) d =
      (.ok ((c.prepare d).store.tryClaim job runner
          (c.clock (c.prepare d).readings).time).1,
        ⟨((c.prepare d).store.tryClaim job runner (c.clock (c.prepare d).readings).time).2,
          (c.prepare d).selected, (c.prepare d).readings + 1, (c.prepare d).requests⟩) := rfl
  rw [hprepared.readings] at hhandle
  rw [Program.leads_ask, hhandle, hstore, Store.tryClaim_setProjectionAvailable]
  refine hnext _ ⟨⟨available, rfl⟩, rfl, fun hsteady ↦ ?_⟩
  obtain ⟨hsame, hselected⟩ := hprepared.steady hsteady
  refine ⟨?_, hselected⟩
  rw [← Store.tryClaim_setProjectionAvailable, ← hstore, hsame]

/-- The projection can fail the call unless it is within reach and nothing happens to it. -/
def MayFail (c : Course) (s : Store) (strategy : StrategyKind) : Prop :=
  strategy = .projection ∧ ¬ (c.IsSteady ∧ s.projectionAvailable = true)

theorem not_mayFail_directScan : ¬ c.MayFail s .directScan := by
  intro h
  exact absurd h.1 (by decide)

/-- A feed that is read shows the queue, or the beginning of it if the projection may fail. -/
theorem At.shows (h : c.At s selected n d) (hsound : s.Sound) (strategy : StrategyKind)
    (scope : ProjectScope) (cutoff : Instant) :
    Feed.Shows (c.MayFail s strategy) (s.scanBuilds scope cutoff)
      (c.disturb (.fetch strategy scope cutoff)
        (.ofResult (d.store.scan strategy scope cutoff))) := by
  obtain ⟨available, hstore⟩ := h.store
  have hqueue : d.store.scanBuilds scope cutoff = s.scanBuilds scope cutoff := by
    rw [hstore]
    rfl
  cases strategy with
  | directScan =>
    change Feed.Shows _ _ (Feed.ofBuilds (d.store.scanBuilds scope cutoff) .done)
    rw [hqueue]
    exact .whole
  | projection =>
    have hd : d.store.Sound := by
      rw [hstore]
      exact hsound.of_eq rfl rfl rfl
    have hscan : d.store.scan .projection scope cutoff =
        if d.store.projectionAvailable then .ok (s.scanBuilds scope cutoff)
        else .error .projectionUnavailable := by
      rw [← hqueue]
      exact hd.scanPending_eq scope cutoff
    have hmay (hnot : ¬ (c.breakOff = none ∧ d.store.projectionAvailable = true)) :
        c.MayFail s .projection := by
      refine ⟨rfl, fun hreach ↦ hnot ⟨hreach.1.2, ?_⟩⟩
      rw [(h.steady hreach.1).1]
      exact hreach.2
    rw [hscan]
    unfold disturb
    cases hbreak : c.breakOff with
    | none =>
      split
      next => exact .whole
      next hunavailable => exact .broken (hmay fun hreach ↦ hunavailable hreach.2) 0 _ .done
    | some breakOff =>
      have hfail : c.MayFail s .projection := hmay fun hreach ↦ by simp [hbreak] at hreach
      obtain ⟨most, e⟩ := breakOff
      change Feed.Shows _ _ (Feed.breakOff e (Feed.ofResult _) most)
      split
      next =>
        change Feed.Shows _ _ (Feed.breakOff e (Feed.ofBuilds _ .done) most)
        rw [Feed.breakOff_ofBuilds]
        exact .broken hfail most e .done
      next =>
        cases most with
        | zero => exact .broken hfail 0 e .done
        | succ most => exact .broken hfail 0 _ _

theorem At.leads_fetch (h : c.At s selected n d) (hsound : s.Sound) (strategy : StrategyKind)
    (scope : ProjectScope) (cutoff : Instant) {next : Feed → Program α}
    (hnext : ∀ feed d', Feed.Shows (c.MayFail s strategy) (s.scanBuilds scope cutoff) feed →
      c.At s selected n d' → (next feed).Leads c.handle Q d') :
    (Program.ask (.fetch strategy scope cutoff) next).Leads c.handle Q d := by
  obtain ⟨d', hd', hafter, hreply⟩ := h.ask (q := .fetch strategy scope cutoff) rfl
  rw [Program.leads_ask, hreply]
  exact hnext _ _ (hd'.shows hsound strategy scope cutoff) hafter

theorem At.leads_depth (h : c.At s selected n d) (hsound : s.Sound) (strategy : StrategyKind)
    (scope : ProjectScope) (cutoff : Instant) {next : Except QueueError Nat → Program α}
    (hnext : ∀ reply d', c.At s selected n d' →
      (reply = .ok (s.scanBuilds scope cutoff).length ∨
        c.MayFail s strategy ∧ ∃ e, reply = .error e) → (next reply).Leads c.handle Q d') :
    (Program.ask (.depth strategy scope cutoff) next).Leads c.handle Q d := by
  obtain ⟨d', hd', hafter, hreply⟩ := h.ask (q := .depth strategy scope cutoff) rfl
  obtain ⟨available, hstore⟩ := hd'.store
  have hd : d'.store.Sound := by
    rw [hstore]
    exact hsound.of_eq rfl rfl rfl
  have hqueue : d'.store.scanBuilds scope cutoff = s.scanBuilds scope cutoff := by
    rw [hstore]
    rfl
  rw [Program.leads_ask, hreply]
  refine hnext _ _ hafter ?_
  change d'.store.depth strategy scope cutoff = _ ∨
    _ ∧ ∃ e, d'.store.depth strategy scope cutoff = _
  unfold Store.depth
  rw [hd.scan_eq, hqueue]
  split
  next => exact .inl rfl
  next hreach =>
    refine .inr ⟨?_, _, rfl⟩
    cases strategy with
    | directScan => exact absurd (.inl rfl) hreach
    | projection =>
      refine ⟨rfl, fun hsteady ↦ hreach (.inr ?_)⟩
      rw [(hd'.steady hsteady.1).1]
      exact hsteady.2

end Requests

end Course

end BuildQueue
