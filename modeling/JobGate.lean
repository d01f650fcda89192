import JobGate.Approval
import JobGate.CommandLine.Answer
import JobGate.CommandLine.Options
import JobGate.CommandLine.Request
import JobGate.Host.Programs
import JobGate.Host.Storage
import JobGate.Host.Tree
import JobGate.Intent
import JobGate.Json.Reader
import JobGate.Json.Token
import JobGate.Json.Value
import JobGate.Main
import JobGate.Message.Inbound
import JobGate.Message.Key
import JobGate.Message.Outbound
import JobGate.Orchestrator.Basic
import JobGate.Orchestrator.Creation
import JobGate.Orchestrator.Execution
import JobGate.Orchestrator.Inbound
import JobGate.Proofs.CommandLine.Spelling
import JobGate.Proofs.Floor.Approval
import JobGate.Proofs.Floor.Basic
import JobGate.Proofs.Floor.Custody
import JobGate.Proofs.Floor.Drain
import JobGate.Proofs.Floor.Move
import JobGate.Proofs.Floor.Progress
import JobGate.Proofs.Floor.Records
import JobGate.Proofs.Floor.Takeover
import JobGate.Proofs.Message.Fragments
import JobGate.Proofs.Message.Grammar
import JobGate.Proofs.Orchestrator.Account
import JobGate.Proofs.Orchestrator.Calls
import JobGate.Proofs.Orchestrator.Consistency
import JobGate.Proofs.Orchestrator.Creation
import JobGate.Proofs.Orchestrator.Decision
import JobGate.Proofs.Orchestrator.Effects
import JobGate.Proofs.Orchestrator.Handled
import JobGate.Proofs.Orchestrator.History
import JobGate.Proofs.Orchestrator.Independence
import JobGate.Proofs.Orchestrator.Keys
import JobGate.Proofs.Orchestrator.Notification
import JobGate.Proofs.Orchestrator.Overdue
import JobGate.Proofs.Orchestrator.Redelivery
import JobGate.Proofs.Queue.Agreement
import JobGate.Proofs.Queue.Backend
import JobGate.Proofs.Queue.Backpressure
import JobGate.Proofs.Queue.Deeds
import JobGate.Proofs.Queue.Durable
import JobGate.Proofs.Queue.HandOut
import JobGate.Proofs.Queue.Index
import JobGate.Proofs.Queue.Kept
import JobGate.Proofs.Queue.Live
import JobGate.Proofs.Queue.Memory
import JobGate.Proofs.Queue.Recovery
import JobGate.Proofs.Queue.Table
import JobGate.Proofs.Queue.Unreadable
import JobGate.Proofs.Run.Appending
import JobGate.Proofs.Run.Later
import JobGate.Proofs.Run.Lifecycle
import JobGate.Proofs.Run.Lives
import JobGate.Proofs.Run.Origin
import JobGate.Proofs.Run.Store
import JobGate.Proofs.Service.Decisions
import JobGate.Proofs.Service.Execution
import JobGate.Proofs.Service.Intake
import JobGate.Proofs.Service.Rejected
import JobGate.Proofs.Settings.Sufficient
import JobGate.Proofs.Text.Base36
import JobGate.Proofs.Time.Sleep
import JobGate.Proofs.Wire.Lines
import JobGate.Proofs.Worker.Attempts
import JobGate.Proofs.Worker.Heartbeat
import JobGate.Proofs.Worker.Processing
import JobGate.Proofs.Worker.Registry
import JobGate.Proofs.Worker.Watch
import JobGate.Queue.Backend
import JobGate.Queue.Basic
import JobGate.Queue.Memory
import JobGate.Queue.Storage
import JobGate.Queue.Table
import JobGate.Random.Draws
import JobGate.Rehearsal.Bench
import JobGate.Rehearsal.Execution
import JobGate.Rehearsal.Perform
import JobGate.Rehearsal.Shift
import JobGate.Rehearsal.Step
import JobGate.Run.Identifier
import JobGate.Run.Record
import JobGate.Run.Status
import JobGate.Run.Store
import JobGate.Service.Console
import JobGate.Service.Desk
import JobGate.Service.Execution
import JobGate.Service.Intake
import JobGate.Service.Jobs
import JobGate.Service.Serve
import JobGate.Service.Setup
import JobGate.Service.Site
import JobGate.Service.Sweep
import JobGate.Settings.Basic
import JobGate.Settings.Location
import JobGate.Settings.Reader
import JobGate.Shell.Arithmetic
import JobGate.Shell.Builtins
import JobGate.Shell.Condition
import JobGate.Shell.Fields
import JobGate.Shell.Format
import JobGate.Shell.Interpreter
import JobGate.Shell.Pattern
import JobGate.Shell.Reader
import JobGate.Shell.State
import JobGate.Shell.Syntax
import JobGate.Shell.Tools
import JobGate.Text.Base36
import JobGate.Text.Blank
import JobGate.Text.Lines
import JobGate.Text.Sha256
import JobGate.Time.Calendar
import JobGate.Time.Cancellation
import JobGate.Time.Instant
import JobGate.Time.Rfc3339
import JobGate.Wire.Outcomes
import JobGate.Wire.Reading
import JobGate.Wire.Records
import JobGate.Worker.Health
import JobGate.Worker.Polling
import JobGate.Worker.Task
import JobGate.Worker.Watch
import JobGate.Yaml.Document
import JobGate.Yaml.Node
import JobGate.Yaml.Place
import JobGate.Yaml.Scalar
import JobGate.Yaml.Token
