/-!
# Readers

A reader takes what it understands from the front of a text and leaves the rest, or refuses. Of two
alternatives the second is tried where the first refuses.
-/

namespace BuildQueue

/-- Reads from the front of a text. -/
abbrev Reader := StateT (List Char) Option

namespace Reader

variable {α β : Type}

/-- Takes one character that satisfies the test. -/
def satisfy (p : Char → Bool) : Reader Char
  | [] => none
  | c :: cs => if p c then some (c, cs) else none

def char (c : Char) : Reader Unit := discard (satisfy (· = c))

/-- Takes exactly these characters. -/
def literal : List Char → Reader Unit
  | [] => pure ()
  | c :: cs => do char c; literal cs

/-- Takes all characters up to the first one that fails the test. -/
def takeWhile (p : Char → Bool) : Reader (List Char) := fun cs ↦
  some (cs.takeWhile p, cs.dropWhile p)

def skipWhile (p : Char → Bool) : Reader Unit := fun cs ↦ some ((), cs.dropWhile p)

/-- Takes characters that satisfy the test, at least one and at most so many. -/
def some? (p : Char → Bool) (most : Nat) : Reader (List Char) := fun cs ↦
  match (cs.take most).takeWhile p with
  | [] => none
  | taken => some (taken, cs.drop taken.length)

/-- The next character, which stays. -/
def peek? : Reader (Option Char) := fun cs ↦ some (cs.head?, cs)

/-- Refuses unless the text is at its end. -/
def atEnd : Reader Unit
  | [] => some ((), [])
  | _ => none

/-- What the reader takes, or nothing. -/
def optional? (r : Reader α) : Reader (Option α) := fun cs ↦
  match r cs with
  | some (a, rest) => some (some a, rest)
  | none => some (none, cs)

/-- Repeats the reader as long as it takes something. -/
def manyWithin (r : Reader α) : Nat → Reader (List α)
  | 0, cs => some ([], cs)
  | fuel + 1, cs =>
    match r cs with
    | some (a, rest) =>
      if rest.length < cs.length then (manyWithin r fuel rest).map fun (as, rest) ↦ (a :: as, rest)
      else some ([], cs)
    | none => some ([], cs)

/-- Repeats the reader as long as it takes something; the text bounds how often. -/
def many (r : Reader α) : Reader (List α) := fun cs ↦ manyWithin r cs.length cs

/-- Reads a whole text. -/
def parse? (r : Reader α) (cs : List Char) : Option α :=
  match r cs with
  | some (a, []) => some a
  | _ => none

end Reader

end BuildQueue
