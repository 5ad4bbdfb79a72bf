import BuildQueue.Engine.Program

/-!
# Reading feeds

A feed may be read item by item outside a poll: one item, so many, or all up to the end.
-/

namespace BuildQueue

/-- An item of a feed. -/
abbrev FeedEntry := Except QueueError QueuedBuild

/-- What was read of a feed. -/
structure FeedReading where
  entries : List FeedEntry
  /-- Reading stopped because nothing came in time. -/
  stalled : Bool

namespace FeedReading

def finished : FeedReading := ⟨[], false⟩

def gaveUp : FeedReading := ⟨[], true⟩

def cons (entry : FeedEntry) (reading : FeedReading) : FeedReading :=
  { reading with entries := entry :: reading.entries }

end FeedReading

namespace Feed

/-- Reads a feed to its end, or until nothing has come for as long as there is patience. The next
item has to come by the deadline. -/
def readAll (patience : Nat) : Feed → Tick → Program FeedReading
  | .done, _ => .done .finished
  | .item entry rest, _ =>
    .ask .tick fun now ↦ do return (← rest.readAll patience (now + patience)).cons entry
  | .wait nanos rest, deadline =>
    .ask (.wait (some nanos) (some deadline)) fun
      | true => rest.readAll patience deadline
      | false => .done .gaveUp
  | .stall, deadline => .ask (.wait none (some deadline)) fun _ ↦ .done .gaveUp
  | .statement s next, deadline =>
    .ask (.statement s (some deadline)) fun
      | some answer => (next answer).readAll patience deadline
      | none => .done .gaveUp

/-- Reads at most so many items, without a deadline. -/
def readUpTo : Feed → Nat → Program FeedReading
  | .done, _ => .done .finished
  | .item _ _, 0 => .done .finished
  | .item entry rest, most + 1 => do return (← rest.readUpTo most).cons entry
  | .wait _ _, 0 => .done .finished
  | .wait nanos rest, most + 1 =>
    .ask (.wait (some nanos) none) fun _ ↦ rest.readUpTo (most + 1)
  | .stall, _ => .done .gaveUp
  | .statement _ _, 0 => .done .finished
  | .statement s next, most + 1 =>
    .ask (.statement s none) fun
      | some answer => (next answer).readUpTo (most + 1)
      | none => .done .gaveUp

/-- Takes the next item, if there is one, and leaves the rest. -/
def next : Feed → Program (Option FeedEntry × Feed)
  | .done => .done (none, .done)
  | .item entry rest => .done (some entry, rest)
  | .wait nanos rest => .ask (.wait (some nanos) none) fun _ ↦ rest.next
  | .stall => .done (none, .stall)
  | .statement s next =>
    .ask (.statement s none) fun
      | some answer => (next answer).next
      | none => .done (none, .done)

end Feed

end BuildQueue
