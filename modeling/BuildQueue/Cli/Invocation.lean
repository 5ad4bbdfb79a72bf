import BuildQueue.Cli.Arguments
import BuildQueue.Runner
import BuildQueue.Strategy
import BuildQueue.Text.Integer

/-!
# Invocations

An invocation is what the program is asked to do. Settings that are not given as arguments may come
from the environment. Anything that is not an invocation is a mistake in usage.
-/

namespace BuildQueue

/-- What the program is asked to do. -/
inductive Command where
  | validate (path : Option String)
  | migrate
  | poll (reg : Registration) (timeout : Option UInt64) (strategy : Option StrategyKind)
  | depth (reg : Registration) (strategy : Option StrategyKind)
  | simulate (runners builds : Nat) (strategy : StrategyKind)

/-- A command with its configuration file and perhaps another database. -/
structure Invocation where
  config : String
  databaseUrl : Option String
  command : Command

/-- The variables that are set. -/
abbrev Environment := List (String × String)

namespace Invocation

/-! ## Values -/

def integer? (r : IntegerRange) (s : String) : Option Int := (r.parse s.toList).toOption

def id? {r : Resource} (s : String) : Option (Id r) := (Id.parse s).toOption

def natural? (s : String) : Option Nat := (integer? .unsigned64 s).map Int.toNat

def boolean? (s : String) : Option Bool :=
  if s = "true" then some true else if s = "false" then some false else none

def strategy? (s : String) : Option StrategyKind := (StrategyKind.parse s).toOption

/-- A path says something. -/
def path? (s : String) : Option String := if s = "" then none else some s

/-- The value of an option, if it is given; it has to be readable. -/
def given? {α : Type} (a : Arguments) (name : String) (read : String → Option α) :
    Option (Option α) :=
  match a.value? name with
  | none => some none
  | some s => (read s).map some

/-- The value of an option, or a default. -/
def givenOr? {α : Type} (a : Arguments) (name : String) (read : String → Option α)
    (standard : α) : Option α :=
  (given? a name read).map (·.getD standard)

/-! ## Commands -/

def runnerOptions : List (String × OptionUse) :=
  [("runner-id", .single), ("tag", .repeated), ("run-untagged", .single), ("protected", .flag),
    ("paused", .flag), ("instance", .flag), ("group", .single), ("project", .repeated)]

/-- The runner that the options declare. -/
def registration? (a : Arguments) : Option Registration := do
  return {
    id := ← (a.value? "runner-id").bind id?
    tags := a.values? "tag"
    runUntagged := ← givenOr? a "run-untagged" boolean? true
    protectedRefAccess := a.has "protected"
    everything := a.has "instance"
    group := ← given? a "group" id?
    projects := ← (a.values? "project").mapM id?
    active := !a.has "paused" }

def validate? (arguments : List String) : Option Command := do
  let a ← Grammar.readAll ⟨[], 1⟩ arguments
  match a.words with
  | [] => return .validate none
  | path :: _ => return .validate (some (← path? path))

def migrate? (arguments : List String) : Option Command := do
  let _ ← Grammar.readAll ⟨[], 0⟩ arguments
  return .migrate

def poll? (arguments : List String) : Option Command := do
  let a ← Grammar.readAll
    ⟨runnerOptions ++ [("timeout-ms", .single), ("strategy", .single)], 0⟩ arguments
  return .poll (← registration? a) ((← given? a "timeout-ms" natural?).map UInt64.ofNat)
    (← given? a "strategy" strategy?)

def depth? (arguments : List String) : Option Command := do
  let a ← Grammar.readAll ⟨runnerOptions ++ [("strategy", .single)], 0⟩ arguments
  return .depth (← registration? a) (← given? a "strategy" strategy?)

def simulate? (arguments : List String) : Option Command := do
  let a ← Grammar.readAll
    ⟨[("runners", .single), ("builds", .single), ("strategy", .single)], 0⟩ arguments
  return .simulate (← givenOr? a "runners" natural? 4) (← givenOr? a "builds" natural? 20)
    (← givenOr? a "strategy" strategy? .projection)

def command? : List String → Option Command
  | "validate" :: arguments => validate? arguments
  | "migrate" :: arguments => migrate? arguments
  | "poll" :: arguments => poll? arguments
  | "depth" :: arguments => depth? arguments
  | "simulate" :: arguments => simulate? arguments
  | _ => none

/-! ## The whole invocation -/

/-- The configuration file that is used unless another one is named. -/
def standardConfig : String := "runq.kdl"

def globalOptions : List (String × OptionUse) := [("config", .single), ("database-url", .single)]

/-- A setting from the arguments or else from the environment. -/
def setting? (a : Arguments) (environment : Environment) (name key : String) :
    Option String :=
  (a.value? name).or (environment.lookup key)

/-- The invocation that arguments and environment denote, if they do. -/
def parse? (environment : Environment) (arguments : List String) : Option Invocation := do
  let (a, rest) ← Grammar.read ⟨globalOptions, 0⟩ .empty arguments
  let config ← path? ((setting? a environment "config" "RUNQ_CONFIG").getD standardConfig)
  return {
    config
    databaseUrl := setting? a environment "database-url" "DATABASE_URL"
    command := ← command? rest }

end Invocation

end BuildQueue
