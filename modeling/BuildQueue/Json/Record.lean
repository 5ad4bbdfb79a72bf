import BuildQueue.Json.Number

/-!
# Records in JSON

A record is an object of its members or an array of their values in their order. Members with other
names are passed over; a member that is given twice makes the record unreadable. What stands for a
member that is missing is the member's own affair.

A tagged value is a record whose tag says which members it has. The tag may stand anywhere, so the
whole value is kept until the tag is known, and has to be fit for that.
-/

namespace BuildQueue.Json

/-! ## Simple values -/

def int? : Json → Option Int
  | .number (.integer n) => some n
  | _ => none

def boolean? : Json → Option Bool
  | .boolean b => some b
  | _ => none

def string? : Json → Option String
  | .string s => s
  | _ => none

def list? {α : Type} (read : Json → Option α) : Json → Option (List α)
  | .array items => items.mapM read
  | _ => none

/-- A value, or null where there is none. -/
def option? {α : Type} (read : Json → Option α) : Json → Option (Option α)
  | .null => some none
  | j => (read j).map some

/-- A value, or a default where the member is missing. -/
def orDefault {α : Type} (standard : α) (read : Json → Option α) : Option Json → Option α
  | none => some standard
  | some j => read j

def ofOption {α : Type} (write : α → Json) : Option α → Json
  | none => .null
  | some a => write a

/-- The value of a name without members, also given as an object with that name. -/
def word? : Json → Option String
  | .string s => s
  | .object [(some name, .null)] => some name
  | _ => none

/-! ## Records -/

/-- What stands for a member that is missing. -/
inductive Absence where
  /-- Nothing: the record is unreadable. -/
  | refused
  /-- Null, in an object. -/
  | null
  /-- A default. -/
  | standard
  deriving DecidableEq

/-- A member of a record. -/
structure Member where
  name : String
  absence : Absence

def needed (name : String) : Member := ⟨name, .refused⟩

/-- The value of a member in an object; `none` if there is none. -/
def Member.find? (m : Member) (members : List (Text × Json)) : Option (Option Json) :=
  match members.filter (·.1 = some m.name) with
  | [(_, j)] => some (some j)
  | [] =>
    match m.absence with
    | .refused => none
    | .null => some (some .null)
    | .standard => some none
  | _ => none

/-- The values in an array, one for each member. -/
def Member.zip? : List Member → List Json → Option (List (Option Json))
  | [], [] => some []
  | _ :: ms, j :: js => (zip? ms js).map (some j :: ·)
  | m :: ms, [] =>
    match m.absence with
    | .standard => (zip? ms []).map (none :: ·)
    | _ => none
  | [], _ :: _ => none

/-- The values of the members of a record. -/
def members? (ms : List Member) : Json → Option (List (Option Json))
  | .object members =>
    if members.all (·.1.isSome) then ms.mapM (·.find? members) else none
  | .array items => Member.zip? ms items
  | _ => none

/-! ## Tagged values -/

mutual

/-- How deep containers are nested in a value. -/
def depth : Json → Nat
  | .array items => depthItems items + 1
  | .object members => depthMembers members + 1
  | _ => 0

def depthItems : List Json → Nat
  | [] => 0
  | j :: js => max (depth j) (depthItems js)

def depthMembers : List (Text × Json) → Nat
  | [] => 0
  | (_, j) :: ms => max (depth j) (depthMembers ms)

end

mutual

/-- All strings are sequences of characters and all numbers are finite. -/
def isSound : Json → Bool
  | .number n => n.isFinite
  | .string s => s.isSome
  | .array items => isSoundItems items
  | .object members => isSoundMembers members
  | _ => true

def isSoundItems : List Json → Bool
  | [] => true
  | j :: js => isSound j && isSoundItems js

def isSoundMembers : List (Text × Json) → Bool
  | [] => true
  | (name, j) :: ms => name.isSome && isSound j && isSoundMembers ms

end

/-- How deep containers may be nested in a value that is kept, with those around it. -/
def deepest : Nat := 127

/-- The tag of a value inside so many containers, and the rest of it. -/
def tagged? (tag : String) (outer : Nat) (j : Json) : Option (String × Json) := do
  if !j.isSound || deepest < outer + j.depth then failure
  match j with
  | .object members =>
    match members.filter (·.1 = some tag) with
    | [(_, name)] => return (← name.string?, .object (members.filter (·.1 != some tag)))
    | _ => failure
  | .array (name :: items) => return (← name.string?, .array items)
  | _ => failure

/-- A value with a tag before its members. -/
def ofTagged (tag name : String) (members : List (String × Json)) : Json :=
  ofMembers ((tag, ofString name) :: members)

/-- What follows the tag of a value without members; other members are passed over. -/
def isUnit : Json → Bool
  | .object _ => true
  | .array items => items.isEmpty
  | _ => false

end BuildQueue.Json
