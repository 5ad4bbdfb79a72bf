/-!
# Durations

A duration is a whole number of nanoseconds whose seconds fit in 64 bits without a sign.
-/

namespace BuildQueue

/-- Nanoseconds in a second. -/
def nanosPerSecond : Nat := 1000000000

/-- A length of time. -/
@[ext]
structure Duration where
  /-- The length in nanoseconds. -/
  nanos : Nat
  nanos_lt : nanos < UInt64.size * 1000000000
  deriving DecidableEq

namespace Duration

instance : Inhabited Duration := ⟨⟨0, by decide⟩⟩

def zero : Duration := ⟨0, by decide⟩

/-- Whole seconds. -/
def seconds (d : Duration) : Nat := d.nanos / nanosPerSecond

/-- Nanoseconds beyond the whole seconds. -/
def subsecond (d : Duration) : Nat := d.nanos % nanosPerSecond

def ofNanos? (n : Nat) : Option Duration :=
  if h : n < UInt64.size * 1000000000 then some ⟨n, h⟩ else none

/-- Nanoseconds of a second and more carry into the seconds. -/
def ofParts? (seconds nanos : Nat) : Option Duration :=
  ofNanos? (seconds * nanosPerSecond + nanos)

def ofSeconds (n : UInt64) : Duration where
  nanos := n.toNat * 1000000000
  nanos_lt := by have := n.toNat_lt_size; omega

def ofMillis (n : UInt64) : Duration where
  nanos := n.toNat * 1000000
  nanos_lt := by have := n.toNat_lt_size; omega

@[simp] theorem nanos_ofSeconds (n : UInt64) : (ofSeconds n).nanos = n.toNat * 1000000000 := rfl

@[simp] theorem nanos_ofMillis (n : UInt64) : (ofMillis n).nanos = n.toNat * 1000000 := rfl

@[simp] theorem nanos_zero : zero.nanos = 0 := rfl

end Duration

end BuildQueue
