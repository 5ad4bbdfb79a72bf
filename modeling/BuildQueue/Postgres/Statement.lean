import BuildQueue.Build
import BuildQueue.Postgres.Error
import BuildQueue.Postgres.Value
import BuildQueue.Strategy

/-!
# Statements

What the queue asks of a PostgreSQL server. Each statement has a name and numbered parameters; an
answer is a list of rows or an error. A dialogue is a finite exchange of statements and answers.
-/

namespace BuildQueue.Postgres

/-- A step of bringing the tables up to date. -/
inductive MigrationStep where
  | lock
  | createTable
  | dirtyVersion
  | applied
  | start
  | script (version : Int)
  | record (version : Int) (description checksum : String)
  | commit
  | finish (version : Int)
  | unlock
  deriving DecidableEq, Repr

/-- What is asked of the server. -/
inductive Statement where
  /-- A page of the queue after a key, at most so many builds. -/
  | queue (strategy : StrategyKind) (cutoff : Instant) (after : Option QueueKey) (limit : Nat)
      (within : Option (List ProjectId))
  /-- The length of the queue. -/
  | depth (strategy : StrategyKind) (cutoff : Instant) (within : Option (List ProjectId))
  | claim (job : JobId) (runner : RunnerId)
  | descendants (root : NamespaceId)
  | projects (ids : List ProjectId)
  | migration (step : MigrationStep)
  deriving DecidableEq

/-- Rows, or the reason why there are none. -/
abbrev Answer := Except StatementError (List Row)

/-- The table a strategy reads, as statements name it. -/
def tableName : StrategyKind → String
  | .directScan => "builds"
  | .projection => "pending"

namespace MigrationStep

def name : MigrationStep → String
  | .lock => "lock"
  | .createTable => "create_migrations_table"
  | .dirtyVersion => "dirty_version"
  | .applied => "applied_migrations"
  | .start => "begin"
  | .script version => "migration_" ++ toString version
  | .record .. => "insert_migration"
  | .commit => "commit"
  | .finish _ => "update_migration"
  | .unlock => "unlock"

def parameters : MigrationStep → List Value
  | .record version description checksum =>
    [.integer version, .text description, .text checksum]
  | .finish version => [.integer version]
  | _ => []

/-- Steps whose rows or failure matter; the others are only acknowledged. -/
def isAnswered : MigrationStep → Bool
  | .dirtyVersion | .applied | .script _ => true
  | _ => false

end MigrationStep

namespace Statement

/-- Statements over listed projects are not those over everything. -/
def scopeName : Option (List ProjectId) → String
  | none => "instance"
  | some _ => "projects"

def name : Statement → String
  | .queue strategy _ _ _ within => tableName strategy ++ "_queue_" ++ scopeName within
  | .depth strategy _ within => tableName strategy ++ "_depth_" ++ scopeName within
  | .claim .. => "claim"
  | .descendants _ => "descendants"
  | .projects _ => "projects"
  | .migration step => step.name

def parameters : Statement → List Value
  | .queue _ cutoff after limit within =>
    [.ofInstant cutoff, .ofOption (fun k ↦ .ofInstant k.queuedAt) after,
      .ofOption (fun k ↦ .ofId k.jobId) after, .integer limit] ++ within.toList.map .ofIds
  | .depth _ cutoff within => [.ofInstant cutoff] ++ within.toList.map .ofIds
  | .claim job runner => [.ofId job, .ofId runner]
  | .descendants root => [.ofId root]
  | .projects ids => [.ofIds ids]
  | .migration step => step.parameters

def isAnswered : Statement → Bool
  | .migration step => step.isAnswered
  | _ => true

end Statement

/-- A finite exchange with the server. -/
inductive Dialogue (α : Type) where
  | done (a : α)
  | ask (s : Statement) (next : Answer → Dialogue α)

namespace Dialogue

variable {α β σ : Type}

def bind : Dialogue α → (α → Dialogue β) → Dialogue β
  | .done a, f => f a
  | .ask s next, f => .ask s fun answer ↦ (next answer).bind f

instance : Monad Dialogue where
  pure := .done
  bind := bind

/-- Holds the exchange with whatever answers statements. -/
def run (execute : Statement → σ → Answer × σ) : Dialogue α → σ → α × σ
  | .done a, s => (a, s)
  | .ask statement next, s =>
    let (answer, s) := execute statement s
    (next answer).run execute s

def statement (s : Statement) : Dialogue Answer := .ask s .done

end Dialogue

end BuildQueue.Postgres
