import BuildQueue.Engine.Feed
import BuildQueue.Project

/-!
# Programs of the engine

What the engine does is a program: a finite tree of requests to its surroundings, each followed by
what happens for every reply. A program says nothing of who replies, so the same poll runs against
a store, a server or a script, alone or among others.
-/

namespace BuildQueue

/-- A reading of a clock that never goes back, in nanoseconds. -/
abbrev Tick := Nat

/-- When waiting ends: at a tick, or never. -/
abbrev Deadline := Option Tick

/-- What the engine asks of its surroundings. -/
inductive Request where
  /-- The clock that deadlines are measured on. -/
  | tick
  /-- The time of day. -/
  | wallClock
  /-- The projects below a namespace. -/
  | descendants (root : NamespaceId) (deadline : Deadline)
  | projects (ids : List ProjectId) (deadline : Deadline)
  /-- The strategy that is selected now. -/
  | selection
  /-- A snapshot of the queue. -/
  | fetch (strategy : StrategyKind) (scope : ProjectScope) (cutoff : Instant)
  /-- To wait for some nanoseconds, or for something that never comes. -/
  | wait (nanos : Option Nat) (deadline : Deadline)
  /-- The answer to a statement of a feed. -/
  | statement (s : Postgres.Statement) (deadline : Deadline)
  /-- To take a build for a runner, if it is still pending. -/
  | claim (job : JobId) (runner : RunnerId)
  /-- The length of the queue. -/
  | depth (strategy : StrategyKind) (scope : ProjectScope) (cutoff : Instant)
  deriving DecidableEq

/-- The replies to a request. Where there is a deadline, `none` means that it came first; a wait
replies whether it came to its end. -/
@[reducible] def Reply : Request → Type
  | .tick => Tick
  | .wallClock => Instant
  | .descendants .. => Option (Except QueueError (List ProjectId))
  | .projects .. => Option (Except QueueError (List ProjectRecord))
  | .selection => StrategyKind
  | .fetch .. => Feed
  | .wait .. => Bool
  | .statement .. => Option Postgres.Answer
  | .claim .. => Except QueueError (Option Assignment)
  | .depth .. => Except QueueError Nat

/-- A finite tree of requests that ends in a result. -/
inductive Program (α : Type) where
  | done (a : α)
  | ask (q : Request) (next : Reply q → Program α)

/-- Surroundings with a state, which reply to every request. -/
abbrev Handler (σ : Type) := (q : Request) → σ → Reply q × σ

namespace Program

variable {α β σ : Type}

def bind : Program α → (α → Program β) → Program β
  | .done a, f => f a
  | .ask q next, f => .ask q fun reply ↦ (next reply).bind f

instance : Monad Program where
  pure := .done
  bind := bind

/-- Asks for one reply. -/
def request (q : Request) : Program (Reply q) := .ask q .done

/-- Runs a program alone in its surroundings. -/
def run (handle : Handler σ) : Program α → σ → α × σ
  | .done a, s => (a, s)
  | .ask q next, s =>
    let (reply, s) := handle q s
    (next reply).run handle s

@[simp] theorem run_done (handle : Handler σ) (a : α) (s : σ) :
    (Program.done a).run handle s = (a, s) := rfl

@[simp] theorem run_ask (handle : Handler σ) (q : Request) (next : Reply q → Program α) (s : σ) :
    (Program.ask q next).run handle s =
      (next (handle q s).1).run handle (handle q s).2 := rfl

@[simp] theorem run_bind (handle : Handler σ) (p : Program α) (f : α → Program β) (s : σ) :
    (p >>= f).run handle s = (f (p.run handle s).1).run handle (p.run handle s).2 := by
  change (p.bind f).run handle s = _
  induction p generalizing s with
  | done a => rfl
  | ask q next ih => simp [bind, ih]

end Program

end BuildQueue
