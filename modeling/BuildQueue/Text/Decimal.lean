/-!
# Decimal digits

Digits are the ten ASCII characters. Writing pads on the left with zeros; reading takes the most
significant digit first.
-/

namespace BuildQueue.Decimal

/-- The value of one digit. -/
def digit? (c : Char) : Option Nat :=
  if c.isDigit then some (c.toNat - '0'.toNat) else none

/-- The number that a row of digits denotes; other characters count as zero. -/
def value (cs : List Char) : Nat :=
  cs.foldl (fun n c ↦ 10 * n + (digit? c).getD 0) 0

/-- The last `width` digits of a number. -/
def fixed : Nat → Nat → List Char
  | 0, _ => []
  | width + 1, n => fixed width (n / 10) ++ [Nat.digitChar (n % 10)]

/-- All digits of a number, and zeros before them up to the width. -/
def padded (width n : Nat) : List Char :=
  let ds := Nat.toDigits 10 n
  List.replicate (width - ds.length) '0' ++ ds

def ofNat (n : Nat) : List Char := Nat.toDigits 10 n

/-- A negative number has a minus sign before the digits of its magnitude. -/
def ofInt (n : Int) : List Char :=
  if n < 0 then '-' :: ofNat n.natAbs else ofNat n.natAbs

theorem length_fixed (width n : Nat) : (fixed width n).length = width := by
  induction width generalizing n with
  | zero => rfl
  | succ w ih => simp [fixed, ih]

end BuildQueue.Decimal
