import ShardFleet.Activity.Basic
import ShardFleet.Activity.Invocation
import ShardFleet.Activity.Pair
import ShardFleet.Activity.Run
import ShardFleet.Configuration
import ShardFleet.Deployment.Basic
import ShardFleet.Deployment.Connection
import ShardFleet.Deployment.Handles
import ShardFleet.Deployment.Stores
import ShardFleet.Digest.Xxh64
import ShardFleet.Distinct
import ShardFleet.Duration
import ShardFleet.Error
import ShardFleet.Fairness
import ShardFleet.Intent.Contexts
import ShardFleet.Intent.Flow
import ShardFleet.Intent.Schedule
import ShardFleet.Intent.Session
import ShardFleet.Intent.Stack
import ShardFleet.Key.Basic
import ShardFleet.Key.Order
import ShardFleet.Key.Range
import ShardFleet.Migration.Basic
import ShardFleet.Migration.Ledger
import ShardFleet.Migration.LedgerTable
import ShardFleet.Migration.Rollout
import ShardFleet.Migration.Store
import ShardFleet.Network.Basic
import ShardFleet.Options
import ShardFleet.OrderedMap
import ShardFleet.Proofs.AllClear
import ShardFleet.Proofs.Ascending
import ShardFleet.Proofs.Attempts
import ShardFleet.Proofs.Configuration
import ShardFleet.Proofs.Connections
import ShardFleet.Proofs.Digest
import ShardFleet.Proofs.Holding
import ShardFleet.Proofs.Identifiers
import ShardFleet.Proofs.Instants
import ShardFleet.Proofs.Intent.Costs
import ShardFleet.Proofs.Intent.Enclosing
import ShardFleet.Proofs.Intent.Ends
import ShardFleet.Proofs.Intent.Isolation
import ShardFleet.Proofs.Intent.Rights
import ShardFleet.Proofs.Intent.Runs
import ShardFleet.Proofs.Intent.Scopes
import ShardFleet.Proofs.Intent.Turns
import ShardFleet.Proofs.Intent.Waits
import ShardFleet.Proofs.Invocation
import ShardFleet.Proofs.Key.Leaves
import ShardFleet.Proofs.Migration.AppendOnly
import ShardFleet.Proofs.Migration.Canaries
import ShardFleet.Proofs.Migration.Foresight
import ShardFleet.Proofs.Migration.Records
import ShardFleet.Proofs.Migration.Repetition
import ShardFleet.Proofs.Migration.Rollouts
import ShardFleet.Proofs.Migration.Sequence
import ShardFleet.Proofs.Migration.Sequential
import ShardFleet.Proofs.Migration.Shares
import ShardFleet.Proofs.Migration.Stamps
import ShardFleet.Proofs.Migration.Visits
import ShardFleet.Proofs.OpenConnections
import ShardFleet.Proofs.OrderedMap
import ShardFleet.Proofs.Reference.Agreement
import ShardFleet.Proofs.Reference.Bindings
import ShardFleet.Proofs.Reference.Books
import ShardFleet.Proofs.Reference.Content
import ShardFleet.Proofs.Reference.Drift
import ShardFleet.Proofs.Reference.Extents
import ShardFleet.Proofs.Reference.Insertions
import ShardFleet.Proofs.Reference.Relations
import ShardFleet.Proofs.Reference.Replicating
import ShardFleet.Proofs.Reference.SharedKeys
import ShardFleet.Proofs.Reference.Unread
import ShardFleet.Proofs.Reference.Upserts
import ShardFleet.Proofs.Replica.Balance
import ShardFleet.Proofs.Replica.Leases
import ShardFleet.Proofs.Replica.Reports
import ShardFleet.Proofs.Replica.Selections
import ShardFleet.Proofs.Replica.Serving
import ShardFleet.Proofs.Replica.Sessions
import ShardFleet.Proofs.Replica.Turns
import ShardFleet.Proofs.Replica.Views
import ShardFleet.Proofs.Ring.Coverage
import ShardFleet.Proofs.Ring.Edits
import ShardFleet.Proofs.Ring.Ownership
import ShardFleet.Proofs.Ring.Rebuilding
import ShardFleet.Proofs.Routing.Departure
import ShardFleet.Proofs.Routing.Groups
import ShardFleet.Proofs.Routing.Pins
import ShardFleet.Proofs.Routing.Ranges
import ShardFleet.Proofs.Routing.Totality
import ShardFleet.Proofs.Scatter.Assured
import ShardFleet.Proofs.Scatter.Cancellation
import ShardFleet.Proofs.Scatter.Conservation
import ShardFleet.Proofs.Scatter.Custody
import ShardFleet.Proofs.Scatter.FailFast
import ShardFleet.Proofs.Scatter.FanOut
import ShardFleet.Proofs.Scatter.Holding
import ShardFleet.Proofs.Scatter.Interruptions
import ShardFleet.Proofs.Scatter.Isolation
import ShardFleet.Proofs.Scatter.LeftOut
import ShardFleet.Proofs.Scatter.Looking
import ShardFleet.Proofs.Scatter.Moves
import ShardFleet.Proofs.Scatter.OneByOne
import ShardFleet.Proofs.Scatter.Places
import ShardFleet.Proofs.Scatter.Progress
import ShardFleet.Proofs.Scatter.Scripts
import ShardFleet.Proofs.Scatter.Verdicts
import ShardFleet.Proofs.Schema.Differences
import ShardFleet.Proofs.Schema.Readings
import ShardFleet.Proofs.Schema.Regrouping
import ShardFleet.Proofs.Schema.Surveys
import ShardFleet.Proofs.SideBySide
import ShardFleet.Proofs.Spending
import ShardFleet.Proofs.StatementTexts
import ShardFleet.Proofs.Tending
import ShardFleet.Proofs.Text.Joining
import ShardFleet.Proofs.Text.Scanning
import ShardFleet.Proofs.Topology
import ShardFleet.Proofs.Verdicts
import ShardFleet.Proofs.Wire.Framing
import ShardFleet.Proofs.Wire.Reading
import ShardFleet.Reference.ContentHash
import ShardFleet.Reference.Replication
import ShardFleet.Reference.Store
import ShardFleet.Reference.Table
import ShardFleet.Reference.TableBook
import ShardFleet.Reference.Upsert
import ShardFleet.Replica.Health
import ShardFleet.Replica.Routing
import ShardFleet.Replica.Set
import ShardFleet.Ring
import ShardFleet.Router
import ShardFleet.Scatter.Executor
import ShardFleet.Scatter.Gathered
import ShardFleet.Scatter.Interruption
import ShardFleet.Scatter.Run
import ShardFleet.Scatter.Script
import ShardFleet.Schema.Basic
import ShardFleet.Schema.Catalog
import ShardFleet.Schema.Diff
import ShardFleet.Schema.Survey
import ShardFleet.ShardId
import ShardFleet.Side
import ShardFleet.Statement
import ShardFleet.Text.Blank
import ShardFleet.Text.Fragment
import ShardFleet.Text.Printable
import ShardFleet.Text.Quoted
import ShardFleet.Text.Utf8
import ShardFleet.Topology
import ShardFleet.Value
import ShardFleet.Wire.Basic
import ShardFleet.Wire.Value
