/-!
# Hexadecimal digits

Digits of either case are read; lower case is written.
-/

namespace BuildQueue.Hexadecimal

/-- The value of one digit. -/
def digit? (c : Char) : Option Nat :=
  if '0' ≤ c ∧ c ≤ '9' then some (c.toNat - '0'.toNat)
  else if 'a' ≤ c ∧ c ≤ 'f' then some (c.toNat - 'a'.toNat + 10)
  else if 'A' ≤ c ∧ c ≤ 'F' then some (c.toNat - 'A'.toNat + 10)
  else none

/-- The number that digits denote, if they are all digits. -/
def value? (cs : List Char) : Option Nat :=
  cs.foldlM (fun n c ↦ (digit? c).map (16 * n + ·)) 0

/-- The last two digits of a number. -/
def pair (n : Nat) : List Char := [Nat.digitChar (n / 16 % 16), Nat.digitChar (n % 16)]

end BuildQueue.Hexadecimal
