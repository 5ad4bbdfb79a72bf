import BuildQueue.Json.Token

/-!
# Reading JSON

The tokens of a text are read one by one. The containers that are open form a stack; a value that is
complete goes to the innermost one.
-/

namespace BuildQueue.Json

/-- A container that is open, with what it holds so far, last one first. -/
inductive Frame where
  | array (items : List Json)
  /-- An object whose next value has this name. -/
  | object (members : List (Text × Json)) (name : Text)

/-- What may come next. -/
inductive Reading where
  /-- A value. -/
  | value (stack : List Frame)
  /-- A value or the end of an array that was just opened. -/
  | items (stack : List Frame)
  /-- A name or the end of an object that was just opened. -/
  | members (stack : List Frame)
  /-- The name of a further member. -/
  | name (members : List (Text × Json)) (stack : List Frame)
  /-- The colon after a name. -/
  | colon (members : List (Text × Json)) (name : Text) (stack : List Frame)
  /-- A value has ended: a comma, the end of its container, or the end of the text. -/
  | after (j : Json) (stack : List Frame)

namespace Reading

/-- A token that starts a value. -/
def start (stack : List Frame) : Token → Option Reading
  | .openBracket => some (items stack)
  | .openBrace => some (members stack)
  | .null => some (after .null stack)
  | .boolean b => some (after (.boolean b) stack)
  | .number n => some (after (.number n) stack)
  | .string s => some (after (.string s) stack)
  | _ => none

/-- A token after a value in a container. -/
def proceed (j : Json) : List Frame → Token → Option Reading
  | .array done :: stack, .comma => some (value (.array (j :: done) :: stack))
  | .array done :: stack, .closeBracket => some (after (.array (j :: done).reverse) stack)
  | .object done n :: stack, .comma => some (name ((n, j) :: done) stack)
  | .object done n :: stack, .closeBrace =>
    some (after (.object ((n, j) :: done).reverse) stack)
  | _, _ => none

def next : Reading → Token → Option Reading
  | value stack, token => start stack token
  | items stack, .closeBracket => some (after (.array []) stack)
  | items stack, token => start (.array [] :: stack) token
  | members stack, .closeBrace => some (after (.object []) stack)
  | members stack, .string s => some (colon [] s stack)
  | name done stack, .string s => some (colon done s stack)
  | colon done n stack, .colon => some (value (.object done n :: stack))
  | after j stack, token => proceed j stack token
  | _, _ => none

/-- The value that was read, if all containers are closed. -/
def finish? : Reading → Option Json
  | after j [] => some j
  | _ => none

end Reading

def ofTokens? (tokens : List Token) : Option Json :=
  (tokens.foldlM Reading.next (.value [])).bind Reading.finish?

/-- The value of a text. -/
def parse? (cs : List Char) : Option Json := (Token.ofChars? cs).bind ofTokens?

end BuildQueue.Json
