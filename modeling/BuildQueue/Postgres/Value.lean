import BuildQueue.Id
import BuildQueue.Time.Instant

/-!
# Values on the wire

Statements carry values to the server and rows carry values back. A time crosses as a whole number
of microseconds since the start of 2000; what does not fit is cut off toward that date.
-/

namespace BuildQueue

namespace Instant

/-- Nanoseconds from the start of 1970 to the start of 2000. -/
def millennium : Int := 946684800 * 1000000000

def toMicros (t : Instant) : Int := (t.nanos - millennium).tdiv 1000

def ofMicros? (micros : Int) : Option Instant := ofNanos? (millennium + micros * 1000)

end Instant

namespace Postgres

/-- A parameter of a statement or a column of a row. -/
inductive Value where
  | null
  | boolean (b : Bool)
  | integer (n : Int)
  | text (s : String)
  /-- Microseconds since the start of 2000. -/
  | timestamp (micros : Int)
  | integers (ns : List Int)
  | texts (ss : List String)
  deriving DecidableEq, Repr, Inhabited

namespace Value

def ofInstant (t : Instant) : Value := .timestamp t.toMicros

def ofId {r : Resource} (i : Id r) : Value := .integer i.toInt

def ofIds {r : Resource} (is : List (Id r)) : Value := .integers (is.map Id.toInt)

def ofOption {α : Type} (f : α → Value) : Option α → Value
  | none => .null
  | some a => f a

end Value

/-- One row of an answer, column by column. -/
abbrev Row := List Value

end Postgres

end BuildQueue
