import BuildQueue.Bench.Basic
import BuildQueue.Bench.Handler
import BuildQueue.Bench.Step
import BuildQueue.Build
import BuildQueue.Cli.Arguments
import BuildQueue.Cli.Failure
import BuildQueue.Cli.Invocation
import BuildQueue.Cli.Run
import BuildQueue.Config.Basic
import BuildQueue.Config.File
import BuildQueue.Config.Settings
import BuildQueue.Eligibility
import BuildQueue.Engine.Claim
import BuildQueue.Engine.Feed
import BuildQueue.Engine.Metrics
import BuildQueue.Engine.Poll
import BuildQueue.Engine.Program
import BuildQueue.Engine.Reading
import BuildQueue.Engine.Scope
import BuildQueue.Engine.Selector
import BuildQueue.Error
import BuildQueue.Files
import BuildQueue.Id
import BuildQueue.Json.Basic
import BuildQueue.Json.Number
import BuildQueue.Json.Queue
import BuildQueue.Json.Reader
import BuildQueue.Json.Record
import BuildQueue.Json.Service
import BuildQueue.Json.Text
import BuildQueue.Json.Token
import BuildQueue.Json.Writer
import BuildQueue.Kdl.Basic
import BuildQueue.Kdl.Document
import BuildQueue.Kdl.Number
import BuildQueue.Kdl.Space
import BuildQueue.Kdl.Text
import BuildQueue.Main
import BuildQueue.OrderedSet
import BuildQueue.Postgres.Connection
import BuildQueue.Postgres.Error
import BuildQueue.Postgres.Lookup
import BuildQueue.Postgres.Migration
import BuildQueue.Postgres.Paging
import BuildQueue.Postgres.Row
import BuildQueue.Postgres.Server
import BuildQueue.Postgres.Statement
import BuildQueue.Postgres.Value
import BuildQueue.Project
import BuildQueue.Proofs.Containers
import BuildQueue.Proofs.Engine.Alone
import BuildQueue.Proofs.Engine.Course
import BuildQueue.Proofs.Engine.Oldest
import BuildQueue.Proofs.Engine.Switching
import BuildQueue.Proofs.Engine.Transcript
import BuildQueue.Proofs.QueueOrder
import BuildQueue.Proofs.Store.Effect
import BuildQueue.Proofs.Store.Hierarchy
import BuildQueue.Proofs.Store.History
import BuildQueue.Proofs.Store.Scope
import BuildQueue.Proofs.Store.Service
import BuildQueue.Proofs.Store.Sound
import BuildQueue.Proofs.Store.Views
import BuildQueue.Proofs.Traffic
import BuildQueue.Runner
import BuildQueue.Simulation
import BuildQueue.Store.Basic
import BuildQueue.Store.Hierarchy
import BuildQueue.Store.Operation
import BuildQueue.Store.Scan
import BuildQueue.Store.Service
import BuildQueue.Strategy
import BuildQueue.Table
import BuildQueue.Tag
import BuildQueue.Text.Blank
import BuildQueue.Text.Decimal
import BuildQueue.Text.Hexadecimal
import BuildQueue.Text.Integer
import BuildQueue.Text.Reader
import BuildQueue.Time.Calendar
import BuildQueue.Time.Duration
import BuildQueue.Time.Instant
import BuildQueue.Time.Rfc3339
import BuildQueue.Proofs.Engine.Deadline
import BuildQueue.Proofs.Store.Provenance
import BuildQueue.Proofs.Engine.Contention
import BuildQueue.Proofs.Engine.Isolation
import BuildQueue.Proofs.Postgres.Wire
import BuildQueue.Proofs.Postgres.Paging
import BuildQueue.Proofs.Engine.Calls
import BuildQueue.Proofs.Engine.Accounting
import BuildQueue.Proofs.Engine.LostRaces
import BuildQueue.Proofs.Engine.Drain
import BuildQueue.Proofs.Simulation.Pursuit
import BuildQueue.Proofs.Simulation.Seed
import BuildQueue.Proofs.Simulation.Crew
import BuildQueue.Proofs.Simulation.Drain
import BuildQueue.Proofs.Simulation.OneByOne
import BuildQueue.Proofs.Store.Trail
import BuildQueue.Proofs.Engine.Passes
import BuildQueue.Proofs.Engine.Failures
import BuildQueue.Proofs.Engine.Retries
import BuildQueue.Proofs.Text.Digits
import BuildQueue.Proofs.Text.Reader
import BuildQueue.Proofs.Json.Token
import BuildQueue.Proofs.Json.Reader
import BuildQueue.Proofs.Json.Spacing
import BuildQueue.Proofs.Json.Likeness
import BuildQueue.Proofs.Json.Record
import BuildQueue.Proofs.Time.Calendar
import BuildQueue.Proofs.Time.Rfc3339
import BuildQueue.Proofs.Json.Queue
import BuildQueue.Proofs.Json.Service
import BuildQueue.Proofs.Store.Closure
import BuildQueue.Proofs.Engine.Directory
import BuildQueue.Proofs.Engine.Capability
import BuildQueue.Proofs.Postgres.Laziness
import BuildQueue.Proofs.Config.Reading
import BuildQueue.Proofs.Config.Occurrences
import BuildQueue.Proofs.Config.Faults
import BuildQueue.Proofs.Config.LastValue
import BuildQueue.Proofs.Engine.OnePass
import BuildQueue.Proofs.Engine.Backoff
