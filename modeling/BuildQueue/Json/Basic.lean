/-!
# JSON values

The values of a JSON text. A text may hold more than the queue can use: numbers beyond every range,
and strings with half of a surrogate pair, which are no sequences of characters. They are values all
the same, so that a reader may skip them.
-/

namespace BuildQueue

/-- A JSON number. -/
inductive Json.Number where
  /-- A number written with digits alone, and not as minus zero. -/
  | integer (n : Int)
  /-- Any other number, as it is written. -/
  | decimal (written : List Char)
  deriving DecidableEq, Repr, Inhabited

/-- The characters of a JSON string, if it is a sequence of characters. -/
abbrev Json.Text := Option String

/-- A JSON value. The members of an object keep their order and may repeat a name. -/
inductive Json where
  | null
  | boolean (b : Bool)
  | number (n : Json.Number)
  | string (s : Json.Text)
  | array (items : List Json)
  | object (members : List (Json.Text × Json))
  deriving Inhabited

namespace Json

def ofString (s : String) : Json := .string (some s)

def ofInt (n : Int) : Json := .number (.integer n)

/-- An object of members with proper names. -/
def ofMembers (members : List (String × Json)) : Json :=
  .object (members.map fun (name, value) ↦ (some name, value))

end Json

end BuildQueue
