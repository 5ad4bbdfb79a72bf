import BuildQueue.Text.Decimal

/-!
# Integers of a range

An integer is written as an optional sign and ASCII digits. A minus sign is a sign only where the
range holds negative numbers. Digits are taken from the left and the first fault is reported, so a
number that leaves the range before a bad character is out of range.
-/

namespace BuildQueue

/-- Why a text is not an integer of the range. -/
inductive IntegerError where
  | empty
  | invalidDigit
  | tooLarge
  | tooSmall
  deriving DecidableEq, Repr

namespace IntegerError

def message : IntegerError → String
  | .empty => "cannot parse integer from empty string"
  | .invalidDigit => "invalid digit found in string"
  | .tooLarge => "number too large to fit in target type"
  | .tooSmall => "number too small to fit in target type"

end IntegerError

/-- A closed range of integers. -/
structure IntegerRange where
  lowest : Int
  highest : Int
  deriving DecidableEq, Repr

namespace IntegerRange

def signed64 : IntegerRange := ⟨-9223372036854775808, 9223372036854775807⟩

def unsigned64 : IntegerRange := ⟨0, 18446744073709551615⟩

def unsigned32 : IntegerRange := ⟨0, 4294967295⟩

def contains (r : IntegerRange) (n : Int) : Bool := r.lowest ≤ n && n ≤ r.highest

theorem contains_iff {r : IntegerRange} {n : Int} :
    r.contains n = true ↔ r.lowest ≤ n ∧ n ≤ r.highest := by
  rw [contains, Bool.and_eq_true, decide_eq_true_iff, decide_eq_true_iff]

/-- Reads digits on top of the number so far, away from zero on the side of the sign. -/
def parseDigits (r : IntegerRange) (negative : Bool) : Int → List Char → Except IntegerError Int
  | n, [] => .ok n
  | n, c :: cs =>
    match Decimal.digit? c with
    | none => .error .invalidDigit
    | some d =>
      let next := if negative then 10 * n - d else 10 * n + d
      if r.highest < next then .error .tooLarge
      else if next < r.lowest then .error .tooSmall
      else parseDigits r negative next cs

def parse (r : IntegerRange) : List Char → Except IntegerError Int
  | [] => .error .empty
  | ['+'] => .error .invalidDigit
  | ['-'] => .error .invalidDigit
  | '+' :: cs => r.parseDigits false 0 cs
  | '-' :: cs => if r.lowest < 0 then r.parseDigits true 0 cs else .error .invalidDigit
  | cs => r.parseDigits false 0 cs

end IntegerRange

end BuildQueue
