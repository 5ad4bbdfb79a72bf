import BuildQueue.Time.Duration

/-!
# Instants

An instant is a UTC time at nanosecond resolution between the first nanosecond of the year -262143
and the last one of the year 262142. Leap seconds are not represented.
-/

namespace BuildQueue

/-- A point in time. -/
@[ext]
structure Instant where
  /-- Nanoseconds since the start of 1970. -/
  nanos : Int
  lowest_le : -8334601228800000000000 ≤ nanos
  le_highest : nanos ≤ 8210266876799999999999
  deriving DecidableEq

namespace Instant

/-- The earliest instant. -/
def earliest : Instant := ⟨-8334601228800000000000, by decide, by decide⟩

/-- The latest instant. -/
def latest : Instant := ⟨8210266876799999999999, by decide, by decide⟩

instance : Inhabited Instant := ⟨⟨0, by decide, by decide⟩⟩

instance : Ord Instant := ⟨fun a b ↦ compare a.nanos b.nanos⟩

theorem compare_def (a b : Instant) : compare a b = compare a.nanos b.nanos := rfl

instance : Std.TransOrd Instant where
  eq_swap {a b} := show compare a.nanos b.nanos = (compare b.nanos a.nanos).swap from
    Std.OrientedCmp.eq_swap
  isLE_trans {a b c} (hab : (compare a.nanos b.nanos).isLE)
      (hbc : (compare b.nanos c.nanos).isLE) :=
    show (compare a.nanos c.nanos).isLE from Std.TransCmp.isLE_trans hab hbc

instance : Std.LawfulEqOrd Instant where
  compare_self {a} := show compare a.nanos a.nanos = .eq from Std.ReflCmp.compare_self
  eq_of_compare {a b} (h : compare a.nanos b.nanos = .eq) :=
    Instant.ext (Std.LawfulEqCmp.eq_of_compare h)

instance : LE Instant := ⟨fun a b ↦ a.nanos ≤ b.nanos⟩

instance : LT Instant := ⟨fun a b ↦ a.nanos < b.nanos⟩

instance (a b : Instant) : Decidable (a ≤ b) := inferInstanceAs (Decidable (a.nanos ≤ b.nanos))

instance (a b : Instant) : Decidable (a < b) := inferInstanceAs (Decidable (a.nanos < b.nanos))

theorem le_def {a b : Instant} : a ≤ b ↔ a.nanos ≤ b.nanos := Iff.rfl

theorem lt_def {a b : Instant} : a < b ↔ a.nanos < b.nanos := Iff.rfl

def ofNanos? (n : Int) : Option Instant :=
  if h : -8334601228800000000000 ≤ n ∧ n ≤ 8210266876799999999999 then some ⟨n, h.1, h.2⟩ else none

/-- Whole seconds since the start of 1970, rounded down. -/
def seconds (t : Instant) : Int := t.nanos / 1000000000

/-- Nanoseconds since the last whole second. -/
def subsecond (t : Instant) : Nat := (t.nanos % 1000000000).toNat

def ofParts? (seconds : Int) (nanos : Nat) : Option Instant :=
  ofNanos? (seconds * 1000000000 + nanos)

/-! ## Spans -/

/-- The longest span between instants that is represented: `2^63 - 1` milliseconds. -/
def longestSpan : Nat := 9223372036854775807 * 1000000

/-- A duration as a span, if it is not too long. -/
def span? (d : Duration) : Option Int :=
  if d.nanos ≤ longestSpan then some d.nanos else none

/-- The instant some nanoseconds away, if it is represented. -/
def offset? (t : Instant) (span : Int) : Option Instant := ofNanos? (t.nanos + span)

/-- The instant a duration before, or the earliest one. -/
def before (t : Instant) (d : Duration) : Instant :=
  ((span? d).bind fun span ↦ t.offset? (-span)).getD earliest

/-- The nearest instant to one some nanoseconds away. -/
def shift (t : Instant) (span : Int) : Instant :=
  (t.offset? span).getD (if span < 0 then earliest else latest)

end Instant

end BuildQueue
