/-!
# KDL documents

A document is a list of nodes. A node has a name, entries and perhaps a block of children; an entry
is a value, with a name if it is a property and without one if it is an argument. Comments and type
annotations are not kept.
-/

namespace BuildQueue.Kdl

inductive Value where
  | string (s : String)
  | integer (n : Int)
  /-- A number with a fraction or an exponent, as it is written, or one that is no number. -/
  | decimal (written : String)
  | boolean (b : Bool)
  | null
  deriving DecidableEq, Repr

/-- An argument, or a property with its name. -/
structure Entry where
  name : Option String
  value : Value
  deriving DecidableEq, Repr

structure Node where
  name : String
  entries : List Entry
  /-- The block of children, if there is one. -/
  children : Option (List Node)
  deriving Repr

namespace Value

def string? : Value → Option String
  | .string s => some s
  | _ => none

def integer? : Value → Option Int
  | .integer n => some n
  | _ => none

def boolean? : Value → Option Bool
  | .boolean b => some b
  | _ => none

end Value

namespace Node

/-- The value of the first argument. -/
def argument? (node : Node) : Option Value :=
  (node.entries.find? (·.name.isNone)).map (·.value)

/-- The value of a property; of several with one name the last one counts. -/
def property? (node : Node) (name : String) : Option Value :=
  (node.entries.reverse.find? (·.name = some name)).map (·.value)

end Node

end BuildQueue.Kdl
