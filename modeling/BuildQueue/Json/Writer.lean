import BuildQueue.Json.Text
import BuildQueue.Text.Decimal

/-!
# Writing JSON

The compact form has no blanks at all. The pretty form puts each item and each member on a line of
its own, two blanks further in than its container.
-/

namespace BuildQueue.Json

def Number.write : Number → List Char
  | .integer n => Decimal.ofInt n
  | .decimal written => written

/-- A string with half a surrogate pair has no written form of its own; it is written as null. -/
def Text.write : Text → List Char
  | some s => writeString s
  | none => "null".toList

def writeBoolean (b : Bool) : List Char := (if b then "true" else "false").toList

/-- The texts one after the other, with a separator between them. -/
def separated (separator : List Char) : List (List Char) → List Char
  | [] => []
  | [cs] => cs
  | cs :: css => cs ++ separator ++ separated separator css

mutual

/-- The compact form. -/
def compact : Json → List Char
  | .array items => '[' :: separated [','] (compactItems items) ++ [']']
  | .object members => '\x7b' :: separated [','] (compactMembers members) ++ ['\x7d']
  | .null => "null".toList
  | .boolean b => writeBoolean b
  | .number n => n.write
  | .string s => s.write

def compactItems : List Json → List (List Char)
  | [] => []
  | j :: js => compact j :: compactItems js

def compactMembers : List (Text × Json) → List (List Char)
  | [] => []
  | (name, j) :: ms => (name.write ++ ':' :: compact j) :: compactMembers ms

end

/-- The start of a line so many containers deep. -/
def newLine (depth : Nat) : List Char := '\n' :: List.replicate (2 * depth) ' '

/-- Lines between two brackets; nothing stands between the brackets of an empty container. -/
def block (depth : Nat) (left right : Char) : List (List Char) → List Char
  | [] => [left, right]
  | lines =>
    [left] ++ newLine (depth + 1) ++ separated (',' :: newLine (depth + 1)) lines ++
      newLine depth ++ [right]

mutual

/-- The pretty form, so many containers deep. -/
def pretty (depth : Nat) : Json → List Char
  | .array items => block depth '[' ']' (prettyItems (depth + 1) items)
  | .object members => block depth '\x7b' '\x7d' (prettyMembers (depth + 1) members)
  | .null => "null".toList
  | .boolean b => writeBoolean b
  | .number n => n.write
  | .string s => s.write

def prettyItems (depth : Nat) : List Json → List (List Char)
  | [] => []
  | j :: js => pretty depth j :: prettyItems depth js

def prettyMembers (depth : Nat) : List (Text × Json) → List (List Char)
  | [] => []
  | (name, j) :: ms => (name.write ++ ": ".toList ++ pretty depth j) :: prettyMembers depth ms

end

def toCompactString (j : Json) : String := String.ofList j.compact

def toPrettyString (j : Json) : String := String.ofList (j.pretty 0)

end BuildQueue.Json
