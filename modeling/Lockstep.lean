import Lockstep.Batch.Advance
import Lockstep.Batch.Basic
import Lockstep.Batch.Round
import Lockstep.Binary64.Basic
import Lockstep.Binary64.Shortest
import Lockstep.Calendar
import Lockstep.Command.Arguments
import Lockstep.Command.Error
import Lockstep.Command.Input
import Lockstep.Command.Report
import Lockstep.Command.Run
import Lockstep.Config
import Lockstep.Engine.Basic
import Lockstep.Engine.Drive
import Lockstep.Engine.Error
import Lockstep.Engine.Lifecycle
import Lockstep.Graph.Basic
import Lockstep.Graph.File
import Lockstep.Json.Document
import Lockstep.Json.Number
import Lockstep.Json.Record
import Lockstep.Json.Token
import Lockstep.Ledger
import Lockstep.Log.Event
import Lockstep.Log.Line
import Lockstep.Log.Severity
import Lockstep.Main
import Lockstep.Metrics
import Lockstep.Operation
import Lockstep.Outcomes
import Lockstep.Pipeline.Basic
import Lockstep.Pipeline.Failure
import Lockstep.Pipeline.Link
import Lockstep.Proofs.Batch.Aborts
import Lockstep.Proofs.Batch.Advance
import Lockstep.Proofs.Batch.Conservation
import Lockstep.Proofs.Batch.Cost
import Lockstep.Proofs.Batch.Dissolution
import Lockstep.Proofs.Batch.Formation
import Lockstep.Proofs.Batch.Groups
import Lockstep.Proofs.Batch.Handover
import Lockstep.Proofs.Batch.Headway
import Lockstep.Proofs.Batch.Lifetime
import Lockstep.Proofs.Batch.Locality
import Lockstep.Proofs.Batch.Retry
import Lockstep.Proofs.Batch.Round
import Lockstep.Proofs.Batch.Run
import Lockstep.Proofs.Batch.Transparency
import Lockstep.Proofs.Batch.Twin
import Lockstep.Proofs.Batch.TwinRun
import Lockstep.Proofs.Batch.Unison
import Lockstep.Proofs.Batch.Verdict
import Lockstep.Proofs.Binary64.Rounding
import Lockstep.Proofs.Command.Accepting
import Lockstep.Proofs.Command.Deferred
import Lockstep.Proofs.Command.Reporting
import Lockstep.Proofs.Command.Run
import Lockstep.Proofs.Command.Schedule
import Lockstep.Proofs.Engine.Abandoned
import Lockstep.Proofs.Engine.Answers
import Lockstep.Proofs.Engine.Balance
import Lockstep.Proofs.Engine.Books
import Lockstep.Proofs.Engine.Call
import Lockstep.Proofs.Engine.Completions
import Lockstep.Proofs.Engine.Conservation
import Lockstep.Proofs.Engine.Drain
import Lockstep.Proofs.Engine.Drivable
import Lockstep.Proofs.Engine.Endings
import Lockstep.Proofs.Engine.Faithful
import Lockstep.Proofs.Engine.Fluent
import Lockstep.Proofs.Engine.Grouping
import Lockstep.Proofs.Engine.Lasting
import Lockstep.Proofs.Engine.Lossless
import Lockstep.Proofs.Engine.Move
import Lockstep.Proofs.Engine.Receipt
import Lockstep.Proofs.Engine.Registered
import Lockstep.Proofs.Engine.Reports
import Lockstep.Proofs.Engine.Requests
import Lockstep.Proofs.Engine.Schedule
import Lockstep.Proofs.Engine.Shutdown
import Lockstep.Proofs.Engine.Stepping
import Lockstep.Proofs.Engine.Store
import Lockstep.Proofs.Engine.Termination
import Lockstep.Proofs.Json.Reading
import Lockstep.Proofs.Ledger.History
import Lockstep.Proofs.Ledger.Times
import Lockstep.Proofs.Ledger.Window
import Lockstep.Proofs.Link.Yield
import Lockstep.Proofs.Log.Line
import Lockstep.Proofs.Operation.Course
import Lockstep.Proofs.Operation.Outlook
import Lockstep.Proofs.Pipeline.Alone
import Lockstep.Proofs.Pipeline.Contract
import Lockstep.Proofs.Pipeline.Lone
import Lockstep.Proofs.Pipeline.Promise
import Lockstep.Proofs.Query.Answer
import Lockstep.Proofs.Query.Comparison
import Lockstep.Proofs.Query.Grammar
import Lockstep.Proofs.Query.Lexing
import Lockstep.Proofs.Query.Meaning
import Lockstep.Proofs.Query.Reading
import Lockstep.Proofs.Query.Rendering
import Lockstep.Proofs.Query.Spelling
import Lockstep.Proofs.Queue.Loans
import Lockstep.Proofs.Queue.Waiting
import Lockstep.Proofs.Registry.Fullness
import Lockstep.Proofs.Registry.IndexMap
import Lockstep.Proofs.Registry.Lookup
import Lockstep.Proofs.Registry.Ring
import Lockstep.Proofs.Registry.Unlocked
import Lockstep.Proofs.Scan.Asking
import Lockstep.Proofs.Scan.Delivery
import Lockstep.Proofs.Scan.Disturbance
import Lockstep.Proofs.Scan.Patient
import Lockstep.Proofs.Scan.Quiet
import Lockstep.Proofs.Scan.Remaining
import Lockstep.Proofs.Scan.Upcoming
import Lockstep.Proofs.Scheduler.Account
import Lockstep.Proofs.Scheduler.Booking
import Lockstep.Proofs.Scheduler.Crew
import Lockstep.Proofs.Scheduler.Dispatch
import Lockstep.Proofs.Scheduler.Fleet
import Lockstep.Proofs.Scheduler.Oldest
import Lockstep.Proofs.Scheduler.Pace
import Lockstep.Proofs.Scheduler.Refinement
import Lockstep.Proofs.Scheduler.Reported
import Lockstep.Proofs.Scheduler.Single
import Lockstep.Proofs.Scheduler.Tally
import Lockstep.Proofs.Scheduler.Turn
import Lockstep.Proofs.Value.Fields
import Lockstep.Proofs.WorkerPool.Idle
import Lockstep.Query.Basic
import Lockstep.Query.Parse
import Lockstep.Query.Plan
import Lockstep.Query.Predicate
import Lockstep.Query.Token
import Lockstep.Queue
import Lockstep.Registry
import Lockstep.Scan.Cursor
import Lockstep.Scan.Kind
import Lockstep.Scan.Source
import Lockstep.Scan.Table
import Lockstep.Scheduler
import Lockstep.Text.Blank
import Lockstep.Text.ExtendingRanges
import Lockstep.Text.Identifier
import Lockstep.Text.Letter
import Lockstep.Text.LetterRanges
import Lockstep.Text.Printable
import Lockstep.Text.Quoted
import Lockstep.Text.Ranges
import Lockstep.Text.UnprintedRanges
import Lockstep.Value.Basic
import Lockstep.Value.Compact
import Lockstep.WorkerPool
