import JobQueue.Daemon.Logging
import JobQueue.Daemon.Run
import JobQueue.Job.Record
import JobQueue.Main
import JobQueue.Uuid
import JobQueue.Proofs.Store.Keyed
import JobQueue.Proofs.Store.Order
import JobQueue.Proofs.Store.Step
import JobQueue.Proofs.Store.History
import JobQueue.Proofs.Store.Attempts
import JobQueue.Proofs.Store.Lifecycle
import JobQueue.Proofs.Store.Trace
import JobQueue.Proofs.Store.NextJob
import JobQueue.Proofs.Store.Shape
import JobQueue.Proofs.Store.Backoff
import JobQueue.Proofs.Store.Retries
import JobQueue.Proofs.Worker.Crew
import JobQueue.Proofs.Worker.Exclusive
import JobQueue.Proofs.Store.Rows
import JobQueue.Proofs.Store.Sqlite
import JobQueue.Proofs.Store.Postgres
import JobQueue.Proofs.Store.Agreement
import JobQueue.Proofs.Store.FileRows
import JobQueue.Proofs.Store.ServerRows
import JobQueue.Proofs.Store.LateReport
import JobQueue.Proofs.Worker.Recovery
import JobQueue.Proofs.Store.Limits
import JobQueue.Proofs.Worker.Slots
import JobQueue.Proofs.Store.Windows
import JobQueue.Proofs.Worker.Quota
import JobQueue.Proofs.Worker.Course
import JobQueue.Proofs.Store.Epoch
import JobQueue.Proofs.Store.Overflow
import JobQueue.Proofs.Store.Tenants
import JobQueue.Proofs.Store.Admission
import JobQueue.Proofs.Worker.Backlog
import JobQueue.Proofs.Worker.Generations
import JobQueue.Proofs.Worker.Keeping
import JobQueue.Proofs.Worker.Superseded
import JobQueue.Proofs.Worker.Shutdown
import JobQueue.Proofs.Worker.Trip
import JobQueue.Proofs.Worker.Stopping
import JobQueue.Proofs.Simulation.Tasks
import JobQueue.Proofs.Simulation.Turn
import JobQueue.Proofs.Simulation.Shutdown
import JobQueue.Proofs.Simulation.Run
import JobQueue.Proofs.Json.Text
import JobQueue.Proofs.Json.Layout
import JobQueue.Proofs.Json.Number
import JobQueue.Proofs.Json.Skip
import JobQueue.Proofs.Job.Record
import JobQueue.Proofs.Store.Listing
import JobQueue.Proofs.Worker.Sweeps
import JobQueue.Proofs.Store.Reached
import JobQueue.Proofs.Store.Reports
import JobQueue.Proofs.Store.Statistics
import JobQueue.Proofs.Store.Separation
import JobQueue.Proofs.Text.Blank
import JobQueue.Proofs.Number.Literal
import JobQueue.Proofs.Submission
import JobQueue.Proofs.Producer
import JobQueue.Proofs.Daemon.Names
import JobQueue.Proofs.Daemon.Variable
import JobQueue.Proofs.Daemon.Settings
import JobQueue.Proofs.Daemon.Queues
import JobQueue.Proofs.Json.Value
import JobQueue.Proofs.Json.Decode
import JobQueue.Proofs.Store.Submitted
import JobQueue.Proofs.Payload
import JobQueue.Proofs.Store.Script
import JobQueue.Proofs.Store.Scheme
import JobQueue.Proofs.Store.Migrations
import JobQueue.Proofs.Daemon.Backend
import JobQueue.Proofs.Daemon.Opening
