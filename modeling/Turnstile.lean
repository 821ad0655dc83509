import Turnstile.Category
import Turnstile.Child.Shutdown
import Turnstile.Child.Status
import Turnstile.Child.Supervision
import Turnstile.Claims
import Turnstile.Command.Allowlist
import Turnstile.Command.Check
import Turnstile.Command.Name
import Turnstile.CommandLine.Arguments
import Turnstile.CommandLine.Listing
import Turnstile.CommandLine.Program
import Turnstile.CommandLine.Report
import Turnstile.Endpoint
import Turnstile.Endpoint.Flags
import Turnstile.Endpoint.Raw
import Turnstile.Endpoint.Resolve
import Turnstile.Executor
import Turnstile.Gate
import Turnstile.Host.Builtin
import Turnstile.Host.Child
import Turnstile.Host.Error
import Turnstile.Host.FileTree
import Turnstile.Host.Image
import Turnstile.Host.Machine
import Turnstile.Host.Path
import Turnstile.Host.Process
import Turnstile.Host.Program
import Turnstile.Host.Run
import Turnstile.Host.Step
import Turnstile.Json.Number
import Turnstile.Json.Read
import Turnstile.Json.Scan
import Turnstile.Json.Skip
import Turnstile.Json.Value
import Turnstile.Limits
import Turnstile.Log
import Turnstile.Main
import Turnstile.Outcome
import Turnstile.Output.Drain
import Turnstile.Output.Line
import Turnstile.Output.Sink
import Turnstile.Pool
import Turnstile.Proofs.Claims
import Turnstile.Proofs.Endpoint.Reading
import Turnstile.Proofs.Gate
import Turnstile.Proofs.Gate.Admissions
import Turnstile.Proofs.Pool.Balance
import Turnstile.Proofs.Pool.Slots
import Turnstile.Proofs.Semaphore
import Turnstile.Request
import Turnstile.Runner
import Turnstile.Semaphore
import Turnstile.Session
import Turnstile.Settings.Basic
import Turnstile.Settings.Json
import Turnstile.Settings.Load
import Turnstile.Shell.Arithmetic
import Turnstile.Shell.Expand
import Turnstile.Shell.Format
import Turnstile.Shell.Parse
import Turnstile.Shell.Pattern
import Turnstile.Shell.Script
import Turnstile.Text.Blank
import Turnstile.Text.Utf8
import Turnstile.Time
import Turnstile.Proofs.Pool.Moves
import Turnstile.Proofs.Pool.Leases
import Turnstile.Proofs.Semaphore.Service
import Turnstile.Proofs.Semaphore.Reached
import Turnstile.Proofs.Command.Acceptance
import Turnstile.Proofs.Child.Supervision
import Turnstile.Proofs.Child.Timeline
import Turnstile.Proofs.Child.Accounting
import Turnstile.Proofs.Child.Messages
import Turnstile.Proofs.Standing
import Turnstile.Proofs.Executor.Ledger
import Turnstile.Proofs.Executor.Operations
import Turnstile.Proofs.Executor.Admission
import Turnstile.Proofs.Executor.Course
import Turnstile.Proofs.Endpoint.Resolve
import Turnstile.Proofs.Pool.Servers
import Turnstile.Proofs.Session.Start
import Turnstile.Proofs.Endpoint.Checking
import Turnstile.Proofs.Executor.Progress
import Turnstile.Proofs.Executor.Refusal
import Turnstile.Proofs.Executor.Shutdown
import Turnstile.Proofs.Output.Reading
import Turnstile.Proofs.Output.Whole
import Turnstile.Proofs.Output.Returns
import Turnstile.Proofs.Text.Size
import Turnstile.Proofs.Output.Bounds
import Turnstile.Proofs.Child.Transition
import Turnstile.Proofs.Child.Leftover
import Turnstile.Proofs.Child.Losses
import Turnstile.Proofs.Executor.Routing
import Turnstile.Proofs.Renaming
import Turnstile.Proofs.Executor.Isolation
import Turnstile.Proofs.Json.Grammar
import Turnstile.Proofs.Json.Scan
import Turnstile.Proofs.Json.Typed
import Turnstile.Proofs.Json.Variants
import Turnstile.Proofs.Settings.RoundTrip
import Turnstile.Proofs.Pool.Rotation
import Turnstile.Proofs.Endpoint.Pointing
import Turnstile.Proofs.Endpoint.Usability
import Turnstile.Proofs.Executor.Setup
import Turnstile.Proofs.Settings.Limits
import Turnstile.Proofs.Endpoint.Automatic
import Turnstile.Proofs.Endpoint.Settled
import Turnstile.Proofs.Endpoint.Warnings
import Turnstile.Proofs.Settings.Words
import Turnstile.Proofs.Settings.Minutes
import Turnstile.Proofs.Executor.Gates
import Turnstile.Proofs.Endpoint.Stripping
import Turnstile.Proofs.Command.Order
import Turnstile.Proofs.Child.Custody
import Turnstile.Proofs.Host.Child
import Turnstile.Proofs.Child.Journal
import Turnstile.Proofs.Child.Reporting
