import BuildQueue.Kdl.Basic
import BuildQueue.Text.Decimal
import BuildQueue.Text.Hexadecimal
import BuildQueue.Text.Reader

/-!
# KDL numbers

Integers are decimal, hexadecimal, octal or binary; underscores may stand between their digits. A
row of digits denotes at most `2^127 - 1`. Numbers with a fraction or an exponent are kept as they
are written.
-/

namespace BuildQueue.Kdl

/-- The largest number that a row of digits may denote. -/
def largestMagnitude : Nat := 170141183460469231731687303715884105727

/-- Digits of a base, the first of them no underscore. -/
def digits (base : Nat) : Reader (List Char) := do
  let isDigit c := (Hexadecimal.digit? c).any (· < base)
  let first ← Reader.satisfy isDigit
  let others ← Reader.takeWhile fun c ↦ isDigit c || c = '_'
  return first :: others.filter (· != '_')

/-- The number that digits of a base denote, if it is not too large. -/
def magnitude (base : Nat) : Reader Nat := do
  let ds ← digits base
  let n := ds.foldl (fun n c ↦ base * n + (Hexadecimal.digit? c).getD 0) 0
  if n ≤ largestMagnitude then return n else failure

/-- Whether there is a minus sign; a plus sign is taken too. -/
def sign : Reader Bool := do
  match ← Reader.optional? (Reader.satisfy fun c ↦ c = '+' || c = '-') with
  | some c => return c = '-'
  | none => return false

def signed (negative : Bool) (n : Nat) : Int := if negative then -n else n

/-- An integer with a mark for its base. -/
def basedInteger (mark : Char) (base : Nat) : Reader Value := do
  let negative ← sign
  Reader.literal ['0', mark]
  return .integer (signed negative (← magnitude base))

/-- The digits after a point. -/
def fractionPart : Reader (List Char) := do
  Reader.char '.'
  return '.' :: Decimal.ofNat (← magnitude 10)

def exponentPart : Reader (List Char) := do
  let _ ← Reader.satisfy fun c ↦ c = 'e' || c = 'E'
  let negative ← sign
  return 'e' :: Decimal.ofInt (signed negative (← magnitude 10))

/-- A decimal integer, or a number with a fraction or an exponent. -/
def decimalNumber : Reader Value := do
  let negative ← sign
  let n ← magnitude 10
  let fraction ← Reader.optional? fractionPart
  let exponent ← Reader.optional? exponentPart
  if fraction.isNone && exponent.isNone then return .integer (signed negative n)
  return .decimal <| String.ofList <|
    Decimal.ofInt (signed negative n) ++ fraction.getD [] ++ exponent.getD []

def number : Reader Value :=
  basedInteger 'x' 16 <|> basedInteger 'o' 8 <|> basedInteger 'b' 2 <|> decimalNumber

end BuildQueue.Kdl
