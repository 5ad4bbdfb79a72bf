import BuildQueue.Postgres.Row

/-!
# Migrations

The tables are brought up to date by scripts, in the order of their versions. A script that was
applied before is not run again, but it must still be the same. Nothing is done while an earlier run
is left half done, or if the database knows a script that is not among these.
-/

namespace BuildQueue.Postgres

/-- A script, by its version, its title and the checksum of its text. -/
structure Migration where
  version : Int
  description : String
  checksum : String
  deriving DecidableEq, Repr

/-- All scripts, by version. -/
def migrations : List Migration :=
  [{ version := 20250101000000
     description := "build queue"
     checksum := "ef2e35ce2190d7946c1d3c0eb586730d8b39e9931c303b14a2064cd2da52f3a9" ++
       "e09e467f4fa81b96da139319a8495810" },
   { version := 20250102000000
     description := "pending builds follow moves"
     checksum := "7ec58c58198f4b28a6395517befec57475ff2dc88ff077e07dff8ca4a5f48af9" ++
       "b147900322445bf7c949b00781ce7136" }]

/-- Why the tables could not be brought up to date. -/
inductive MigrationError where
  /-- An earlier run stopped in this script. -/
  | dirty (version : Int)
  /-- The database knows a script that is not among these. -/
  | missing (version : Int)
  /-- An applied script is not the same any more. -/
  | modified (version : Int)
  | statement (e : StatementError)
  | script (version : Int) (e : StatementError)
  deriving DecidableEq, Repr

namespace MigrationError

def message : MigrationError → String
  | .dirty version =>
    s!"migration {version} is partially applied; fix and remove row from `_sqlx_migrations` table"
  | .missing version =>
    s!"migration {version} was previously applied but is missing in the resolved migrations"
  | .modified version => s!"migration {version} was previously applied but has been modified"
  | .statement e => "while executing migrations: " ++ e.message
  | .script version e => s!"while executing migration {version}: " ++ e.message

/-- What lies behind the error, outermost first. -/
def causes : MigrationError → List String
  | .statement e => e.message :: e.causes
  | .script _ e => e.message :: e.causes
  | _ => []

end MigrationError

/-- A script the database says was applied, with its checksum. -/
def applied? : Row → Option (Int × String)
  | [.integer version, .text checksum] => some (version, checksum)
  | _ => none

def version? : Row → Option Int
  | [.integer version] => some version
  | _ => none

/-- A step that has to succeed. -/
def step (s : MigrationStep) : ExceptT MigrationError Dialogue Unit := do
  match ← Dialogue.statement (.migration s) with
  | .ok _ => return
  | .error e => throw (.statement e)

/-- Runs a script and records it. -/
def Migration.apply (m : Migration) : ExceptT MigrationError Dialogue Unit := do
  step .start
  match ← Dialogue.statement (.migration (.script m.version)) with
  | .ok _ => pure ()
  | .error e => throw (.script m.version e)
  step (.record m.version m.description m.checksum)
  step .commit
  step (.finish m.version)

/-- Runs a script unless it was applied; the last record of a version counts. -/
def Migration.bringUp (applied : List (Int × String)) (m : Migration) :
    ExceptT MigrationError Dialogue Unit :=
  match applied.reverse.find? (·.1 = m.version) with
  | none => m.apply
  | some (_, checksum) =>
    if checksum.map Char.toLower = m.checksum then pure () else throw (.modified m.version)

def migrate (scripts : List Migration) : ExceptT MigrationError Dialogue Unit := do
  step .lock
  step .createTable
  match Answer.first? version? (← Dialogue.statement (.migration .dirtyVersion)) with
  | .error e => throw (.statement e)
  | .ok (some version) => throw (.dirty version)
  | .ok none => pure ()
  match Answer.rows applied? (← Dialogue.statement (.migration .applied)) with
  | .error e => throw (.statement e)
  | .ok applied =>
    match applied.find? fun record ↦ !scripts.any (·.version = record.1) with
    | some (version, _) => throw (.missing version)
    | none => scripts.forM (Migration.bringUp applied)
  step .unlock

end BuildQueue.Postgres
