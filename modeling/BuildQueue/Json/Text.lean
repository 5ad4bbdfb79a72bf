import BuildQueue.Json.Basic
import BuildQueue.Text.Hexadecimal

/-!
# JSON strings

A string stands between quotes. Quotes, backslashes and the characters below the blank are written
as escapes, everything else as it is. An escape may give a UTF-16 surrogate; two halves in a row are
one character, and half a pair alone makes the string no sequence of characters.
-/

namespace BuildQueue.Json

/-! ## Code points and surrogates -/

def isHighSurrogate (n : Nat) : Bool := 0xD800 ≤ n && n < 0xDC00

def isLowSurrogate (n : Nat) : Bool := 0xDC00 ≤ n && n < 0xE000

/-- The characters of a row of code points, if surrogates come in pairs only. -/
def charsOfPoints? : List Nat → Option (List Char)
  | [] => some []
  | [n] => if isHighSurrogate n || isLowSurrogate n then none else some [Char.ofNat n]
  | n :: m :: ns =>
    if isHighSurrogate n then
      if isLowSurrogate m then
        (charsOfPoints? ns).map
          (Char.ofNat (0x10000 + (n - 0xD800) * 0x400 + (m - 0xDC00)) :: ·)
      else none
    else if isLowSurrogate n then none
    else (charsOfPoints? (m :: ns)).map (Char.ofNat n :: ·)

def Text.ofPoints (ns : List Nat) : Text := (charsOfPoints? ns).map String.ofList

/-! ## Reading -/

/-- What an escape of one character stands for. -/
def escaped? : Char → Option Nat
  | '"' => some 0x22
  | '\\' => some 0x5C
  | '/' => some 0x2F
  | 'b' => some 0x08
  | 'f' => some 0x0C
  | 'n' => some 0x0A
  | 'r' => some 0x0D
  | 't' => some 0x09
  | _ => none

/-- The code points up to the closing quote, and what follows it. -/
def scanText? : List Char → Option (List Nat × List Char)
  | [] => none
  | '"' :: cs => some ([], cs)
  | '\\' :: 'u' :: a :: b :: c :: d :: cs => do
    let n ← Hexadecimal.value? [a, b, c, d]
    let (ns, rest) ← scanText? cs
    return (n :: ns, rest)
  | '\\' :: e :: cs => do
    let n ← escaped? e
    let (ns, rest) ← scanText? cs
    return (n :: ns, rest)
  | c :: cs =>
    if c.toNat < 0x20 ∨ c = '\\' then none
    else do
      let (ns, rest) ← scanText? cs
      return (c.toNat :: ns, rest)

/-! ## Writing -/

/-- A character as it stands in a string. -/
def writeChar (c : Char) : List Char :=
  if c = '"' then ['\\', '"']
  else if c = '\\' then ['\\', '\\']
  else if c = '\n' then ['\\', 'n']
  else if c = '\r' then ['\\', 'r']
  else if c = '\t' then ['\\', 't']
  else if c.toNat = 0x08 then ['\\', 'b']
  else if c.toNat = 0x0C then ['\\', 'f']
  else if c.toNat < 0x20 then ['\\', 'u', '0', '0'] ++ Hexadecimal.pair c.toNat
  else [c]

def writeString (s : String) : List Char := '"' :: s.toList.flatMap writeChar ++ ['"']

end BuildQueue.Json
