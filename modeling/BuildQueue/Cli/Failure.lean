import BuildQueue.Config.Basic
import BuildQueue.Postgres.Migration

/-!
# Failures of commands

A command that fails says what failed and, outermost first, what lies behind it.
-/

namespace BuildQueue

/-- What a failed command has to say. -/
structure Failure where
  message : String
  causes : List String
  deriving DecidableEq, Repr

namespace Failure

def ofMessage (message : String) : Failure := ⟨message, []⟩

def ofConfig (path : String) (e : ConfigError) : Failure :=
  ⟨"failed to load " ++ path, e.message :: e.causes⟩

def ofConnection (e : Postgres.StatementError) : Failure :=
  ⟨"failed to connect to database",
    (Postgres.DatabaseError.statement e).message :: e.message :: e.causes⟩

def ofMigration (e : Postgres.MigrationError) : Failure :=
  ⟨"migration error: " ++ e.message, e.message :: e.causes⟩

/-- A text whose lines after the first one are indented. -/
def indented (margin : String) (text : String) : String :=
  ("\n" ++ margin).intercalate (text.splitToList (· = '\n'))

/-- A cause; it has a number if it is one of several. -/
def writeCause (numbered : Bool) (i : Nat) (cause : String) : String :=
  if numbered then
    let number := toString i
    String.ofList (List.replicate (5 - number.length) ' ') ++ number ++ ": " ++
      indented "       " cause
  else "    " ++ indented "    " cause

def writeCauses (causes : List String) : List String :=
  causes.mapIdx (writeCause (1 < causes.length))

/-- The failure as it is shown. -/
def render (f : Failure) : String :=
  "Error: " ++ f.message ++ "\n" ++
    if f.causes.isEmpty then ""
    else "\nCaused by:\n" ++ String.join ((writeCauses f.causes).map (· ++ "\n"))

end Failure

end BuildQueue
