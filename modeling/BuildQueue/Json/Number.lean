import BuildQueue.Json.Basic
import BuildQueue.Text.Decimal

/-!
# JSON numbers

A number is an integer part without leading zeros, and then perhaps a fraction and an exponent. It
is finite if it is not too large for a double.
-/

namespace BuildQueue.Json.Number

/-- The characters that numbers are made of. -/
def isNumeric (c : Char) : Bool :=
  c.isDigit || c = '-' || c = '+' || c = '.' || c = 'e' || c = 'E'

/-- A number taken apart. -/
structure Parts where
  negative : Bool
  whole : List Char
  fraction : List Char
  exponent : Int
  /-- There is a fraction or an exponent. -/
  pointed : Bool

/-- Digits, at least one, and what follows them. -/
def digits? (cs : List Char) : Option (List Char × List Char) :=
  match cs.takeWhile Char.isDigit with
  | [] => none
  | ds => some (ds, cs.dropWhile Char.isDigit)

/-- An integer part: zero alone, or digits that start with another one. -/
def whole? : List Char → Option (List Char × List Char)
  | '0' :: cs => some (['0'], cs)
  | cs => digits? cs

def fraction? : List Char → Option (List Char × List Char)
  | '.' :: cs => digits? cs
  | cs => some ([], cs)

/-- The digits of an exponent to the end of the number. -/
def exponentDigits? (cs : List Char) : Option Nat :=
  match digits? cs with
  | some (ds, []) => some (Decimal.value ds)
  | _ => none

/-- An exponent to the end of the number, or nothing. -/
def exponent? : List Char → Option Int
  | [] => some 0
  | c :: cs =>
    if c = 'e' ∨ c = 'E' then
      match cs with
      | '-' :: ds => (exponentDigits? ds).map fun n ↦ -(n : Int)
      | '+' :: ds => (exponentDigits? ds).map Int.ofNat
      | ds => (exponentDigits? ds).map Int.ofNat
    else none

/-- Takes a number without its sign apart. -/
def magnitude? (negative : Bool) (cs : List Char) : Option Parts := do
  let (whole, rest) ← whole? cs
  let (fraction, tail) ← fraction? rest
  let exponent ← exponent? tail
  return { negative, whole, fraction, exponent, pointed := !rest.isEmpty }

def parts? : List Char → Option Parts
  | '-' :: cs => magnitude? true cs
  | cs => magnitude? false cs

/-- The number that is written so, if it is one. -/
def ofChars? (cs : List Char) : Option Number := do
  let p ← parts? cs
  let n := Decimal.value p.whole
  if p.pointed || (p.negative && n = 0) then return .decimal cs
  return .integer (if p.negative then -n else n)

/-- The least number that is too large for a double: half a step above the largest one. -/
def overflow : Nat := (1 <<< 1024) - (1 <<< 970)

/-- Whether digits times a power of ten stay below the overflow. -/
def Parts.isFinite (p : Parts) : Bool :=
  let significant := (p.whole ++ p.fraction).dropWhile (· = '0')
  let power := p.exponent - p.fraction.length
  if significant.isEmpty then true
  else if power + significant.length < 309 then true
  else if 309 < power + significant.length then false
  else
    let n := Decimal.value significant
    if 0 ≤ power then n * Nat.pow 10 power.toNat < overflow
    else n < overflow * Nat.pow 10 (-power).toNat

def isFinite : Number → Bool
  | .integer n => n.natAbs < overflow
  | .decimal written => (parts? written).any Parts.isFinite

end BuildQueue.Json.Number
