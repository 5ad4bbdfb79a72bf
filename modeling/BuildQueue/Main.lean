import BuildQueue.Cli.Run
import Std.Time.Format

/-!
# The program

Reads what the command line needs from the system, runs it, and prints what it leaves behind. No
database server can be reached from here.
-/

namespace BuildQueue

/-- The file at a path, if it can be read. -/
def readFile (path : String) : IO FileTree := do
  try
    return .ofFiles [(path, ← IO.FS.readBinFile path)]
  catch _ =>
    return .empty

/-- The path of the configuration that an invocation uses. -/
def Invocation.configPath (i : Invocation) : String :=
  match i.command with
  | .validate (some path) => path
  | _ => i.config

def readEnvironment : IO Environment := do
  let names := ["RUNQ_CONFIG", "DATABASE_URL"]
  let values ← names.mapM fun name ↦ do return (← IO.getEnv name).map (name, ·)
  return values.filterMap id

end BuildQueue

open BuildQueue

def main (arguments : List String) : IO UInt32 := do
  let environment ← readEnvironment
  let files ← match Invocation.parse? environment arguments with
    | some i => readFile i.configPath
    | none => pure .empty
  let nanos := (← Std.Time.Timestamp.now).toNanosecondsSinceUnixEpoch.val
  let now := (Instant.ofNanos? nanos).getD default
  let effect := ({ files, servers := [], now } : Surroundings).execute environment arguments
  IO.print effect.output
  IO.eprint effect.errorOutput
  return effect.status
