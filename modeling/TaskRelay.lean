import TaskRelay.Bench
import TaskRelay.Client
import TaskRelay.Client.Calls
import TaskRelay.CommandLine.Basic
import TaskRelay.CommandLine.Bench
import TaskRelay.Config
import TaskRelay.Decimal.Double
import TaskRelay.Decimal.Layout
import TaskRelay.Decimal.Shortest
import TaskRelay.Description
import TaskRelay.Dispatcher
import TaskRelay.Engine.Error
import TaskRelay.Engine.Options
import TaskRelay.Engine.Schedule
import TaskRelay.Engine.State
import TaskRelay.Engine.Store
import TaskRelay.Envelope
import TaskRelay.Failure
import TaskRelay.Json.Basic
import TaskRelay.Json.Cursor
import TaskRelay.Json.Fault
import TaskRelay.Json.Printer
import TaskRelay.Json.Reader
import TaskRelay.Json.Scalar
import TaskRelay.Main
import TaskRelay.Panic
import TaskRelay.Pipe
import TaskRelay.Pipe.Pooled
import TaskRelay.Pipe.System
import TaskRelay.Pipe.Traffic
import TaskRelay.Pool.Limits
import TaskRelay.Pool.Opening
import TaskRelay.Pool.Schedule
import TaskRelay.Pool.Session
import TaskRelay.Pool.State
import TaskRelay.Proofs.Arguments
import TaskRelay.Proofs.Bench
import TaskRelay.Proofs.Client.Future
import TaskRelay.Proofs.CommandLine
import TaskRelay.Proofs.Config
import TaskRelay.Proofs.Config.Store
import TaskRelay.Proofs.Dispatcher
import TaskRelay.Proofs.Dispatcher.Context
import TaskRelay.Proofs.Dispatcher.Registrations
import TaskRelay.Proofs.Engine.Agreement
import TaskRelay.Proofs.Engine.Alive
import TaskRelay.Proofs.Engine.Answers
import TaskRelay.Proofs.Engine.Beside
import TaskRelay.Proofs.Engine.Failing
import TaskRelay.Proofs.Engine.History
import TaskRelay.Proofs.Engine.Life
import TaskRelay.Proofs.Engine.Options
import TaskRelay.Proofs.Engine.Permits
import TaskRelay.Proofs.Engine.Processing
import TaskRelay.Proofs.Engine.Quiescence
import TaskRelay.Proofs.Engine.Remote
import TaskRelay.Proofs.Engine.Settling
import TaskRelay.Proofs.Engine.Snapshots
import TaskRelay.Proofs.Engine.Step
import TaskRelay.Proofs.Engine.Table
import TaskRelay.Proofs.Engine.Tickets
import TaskRelay.Proofs.Engine.Undisturbed
import TaskRelay.Proofs.Engine.Verbatim
import TaskRelay.Proofs.Engine.Visitors
import TaskRelay.Proofs.Envelope
import TaskRelay.Proofs.Envelope.Normal
import TaskRelay.Proofs.Json.Beside
import TaskRelay.Proofs.Json.Canonical
import TaskRelay.Proofs.Json.Depth
import TaskRelay.Proofs.Json.Grammar
import TaskRelay.Proofs.Json.Passing
import TaskRelay.Proofs.Json.RoundTrip
import TaskRelay.Proofs.Json.Scalars
import TaskRelay.Proofs.Members
import TaskRelay.Proofs.Message
import TaskRelay.Proofs.Pipe.Completion
import TaskRelay.Proofs.Pipe.Messages
import TaskRelay.Proofs.Pipe.Outputs
import TaskRelay.Proofs.Pipe.Played
import TaskRelay.Proofs.Pipe.Rest
import TaskRelay.Proofs.Pipe.Sequential
import TaskRelay.Proofs.Pipe.Step
import TaskRelay.Proofs.Pipe.System
import TaskRelay.Proofs.Pool.Growth
import TaskRelay.Proofs.Pool.Jobs
import TaskRelay.Proofs.Pool.Rest
import TaskRelay.Proofs.Pool.Size
import TaskRelay.Proofs.Pool.Staff
import TaskRelay.Proofs.Pool.Step
import TaskRelay.Proofs.Pool.Work
import TaskRelay.Proofs.Registry
import TaskRelay.Proofs.Relay
import TaskRelay.Proofs.Request
import TaskRelay.Proofs.Rows
import TaskRelay.Proofs.Shape.Any
import TaskRelay.Proofs.Shape.Empty
import TaskRelay.Proofs.Shape.Gathered
import TaskRelay.Proofs.Shape.Optional
import TaskRelay.Proofs.Shape.Read
import TaskRelay.Proofs.Shape.Tagged
import TaskRelay.Proofs.Text.Bytes
import TaskRelay.Registry
import TaskRelay.Request
import TaskRelay.Rows
import TaskRelay.Sample.Errors
import TaskRelay.Sample.Gates
import TaskRelay.Sample.Tasks
import TaskRelay.Shape.Basic
import TaskRelay.Shape.OfJson
import TaskRelay.Shape.Read
import TaskRelay.Shape.Tagged
import TaskRelay.Shape.ToJson
import TaskRelay.StoreState
import TaskRelay.Task
import TaskRelay.Text.Count
import TaskRelay.Text.Printable
import TaskRelay.Text.Quoted
import TaskRelay.Text.Terminal
