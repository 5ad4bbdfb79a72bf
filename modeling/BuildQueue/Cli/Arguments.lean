/-!
# Arguments

An argument is an option with two hyphens, or a word by itself. An option's value follows it or is
attached with an equals sign; a value that starts with a hyphen has to be attached, unless it is a
hyphen alone. Two hyphens alone end the options.
-/

namespace BuildQueue

/-- How an option is given. -/
inductive OptionUse where
  /-- At most once, without a value. -/
  | flag
  /-- At most once, with a value. -/
  | single
  /-- Any number of times, each with a value. -/
  | repeated
  deriving DecidableEq, Repr

/-- The options that may be given, and how many other words. -/
structure Grammar where
  options : List (String × OptionUse)
  words : Nat

/-- Arguments by the options they belong to, in their order. -/
structure Arguments where
  /-- The options given, with their values; a flag has an empty one. -/
  values : List (String × String)
  words : List String
  deriving DecidableEq, Repr

/-- An argument by itself. -/
inductive Argument where
  /-- An option, with the value attached to it. -/
  | option (name : String) (value : Option String)
  | word (s : String)
  /-- Two hyphens alone. -/
  | endOfOptions
  /-- A hyphen and other characters, or an empty name. -/
  | malformed
  deriving DecidableEq

namespace Argument

/-- Takes an option's name off a value attached to it. -/
def ofOption (cs : List Char) : Argument :=
  let name := cs.takeWhile (· != '=')
  if name.isEmpty then malformed
  else
    match cs.dropWhile (· != '=') with
    | [] => option (String.ofList name) none
    | _ :: value => option (String.ofList name) (some (String.ofList value))

def parse (s : String) : Argument :=
  match s.toList with
  | ['-', '-'] => endOfOptions
  | '-' :: '-' :: cs => ofOption cs
  | ['-'] => word s
  | '-' :: _ => malformed
  | _ => word s

end Argument

namespace Arguments

def empty : Arguments := ⟨[], []⟩

def has (a : Arguments) (name : String) : Bool := a.values.any (·.1 = name)

def values? (a : Arguments) (name : String) : List String :=
  (a.values.filter (·.1 = name)).map (·.2)

def value? (a : Arguments) (name : String) : Option String := (a.values? name).head?

/-- Adds an option unless it must not be repeated. -/
def add (a : Arguments) (use : OptionUse) (name value : String) : Option Arguments :=
  if use ≠ .repeated ∧ a.has name then none
  else some { a with values := a.values ++ [(name, value)] }

/-- Adds a word unless there are too many. -/
def addWord (a : Arguments) (grammar : Grammar) (s : String) : Option Arguments :=
  if a.words.length < grammar.words then some { a with words := a.words ++ [s] } else none

end Arguments

namespace Grammar

def use? (grammar : Grammar) (name : String) : Option OptionUse :=
  (grammar.options.find? (·.1 = name)).map (·.2)

/-- An option with what follows it: its value if it needs one that is not attached. -/
def takeValue (use : OptionUse) (attached : Option String) (rest : List String) :
    Option (String × List String) :=
  match use, attached, rest with
  | .flag, none, rest => some ("", rest)
  | .flag, some _, _ => none
  | _, some value, rest => some (value, rest)
  | _, none, value :: rest =>
    match Argument.parse value with
    | .word value => some (value, rest)
    | _ => none
  | _, none, [] => none

theorem length_takeValue {use : OptionUse} {attached : Option String} {rest left : List String}
    {value : String} (h : takeValue use attached rest = some (value, left)) :
    left.length ≤ rest.length := by
  unfold takeValue at h
  split at h
  · simp_all
  · simp at h
  · simp_all
  · split at h
    · simp only [Option.some.injEq, Prod.mk.injEq] at h
      obtain ⟨_, rfl⟩ := h
      simp
    · simp at h
  · simp at h

/-- Reads arguments up to the first word that is too many; says what was read and what is left. -/
def read (grammar : Grammar) (a : Arguments) : List String → Option (Arguments × List String)
  | [] => some (a, [])
  | s :: rest =>
    match Argument.parse s with
    | .malformed => none
    | .endOfOptions =>
      (rest.foldlM (fun (a : Arguments) s ↦ a.addWord grammar s) a).map fun a ↦ (a, [])
    | .word w =>
      match a.addWord grammar w with
      | some a => read grammar a rest
      | none => some (a, s :: rest)
    | .option name attached =>
      match grammar.use? name with
      | none => none
      | some use =>
        match _h : takeValue use attached rest with
        | none => none
        | some (value, left) =>
          match a.add use name value with
          | some a => read grammar a left
          | none => none
termination_by arguments => arguments.length
decreasing_by
  · simp
  · have := length_takeValue ‹_›
    simp only [List.length_cons]
    omega

/-- Reads all arguments. -/
def readAll (grammar : Grammar) (arguments : List String) : Option Arguments :=
  match grammar.read .empty arguments with
  | some (a, []) => some a
  | _ => none

end Grammar

end BuildQueue
