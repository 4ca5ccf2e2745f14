import CheckRounds.Agent
import CheckRounds.Agent.Overview
import CheckRounds.Collation.Directory
import CheckRounds.Collation.Leftover
import CheckRounds.Collation.Parcel
import CheckRounds.Collation.Payload
import CheckRounds.Collation.Store
import CheckRounds.Collation.Stream
import CheckRounds.Collation.Writer
import CheckRounds.Config
import CheckRounds.Config.Reader
import CheckRounds.Controller
import CheckRounds.Controller.Task
import CheckRounds.Exchange
import CheckRounds.Fault
import CheckRounds.Frame
import CheckRounds.Frame.Source
import CheckRounds.Host
import CheckRounds.ItemKey
import CheckRounds.Json.Number
import CheckRounds.Json.Text
import CheckRounds.Json.Token
import CheckRounds.Json.Tree
import CheckRounds.Json.Value
import CheckRounds.Main
import CheckRounds.Message.Acknowledgement
import CheckRounds.Message.Order
import CheckRounds.Message.Record
import CheckRounds.Message.Reply
import CheckRounds.Message.Request
import CheckRounds.Message.Submission
import CheckRounds.Number.Binary64
import CheckRounds.Number.Scientific
import CheckRounds.Number.Shortest
import CheckRounds.Number.Words
import CheckRounds.Proofs.Agent.Attempts
import CheckRounds.Proofs.Agent.Configuration
import CheckRounds.Proofs.Agent.Duties
import CheckRounds.Proofs.Agent.Enrolment
import CheckRounds.Proofs.Agent.Handles
import CheckRounds.Proofs.Agent.HostChanges
import CheckRounds.Proofs.Agent.MapHosts
import CheckRounds.Proofs.Agent.Orders
import CheckRounds.Proofs.Agent.Reachable
import CheckRounds.Proofs.Agent.Registration
import CheckRounds.Proofs.Agent.Removal
import CheckRounds.Proofs.Agent.Renewal
import CheckRounds.Proofs.Agent.Sound
import CheckRounds.Proofs.Collation.Calls
import CheckRounds.Proofs.Collation.Parcels
import CheckRounds.Proofs.Collation.Stores
import CheckRounds.Proofs.Collation.Streams
import CheckRounds.Proofs.Collation.Transmissions
import CheckRounds.Proofs.Collation.Writers
import CheckRounds.Proofs.Config
import CheckRounds.Proofs.Controller
import CheckRounds.Proofs.Controller.Commands
import CheckRounds.Proofs.Controller.Histories
import CheckRounds.Proofs.Controller.Settings
import CheckRounds.Proofs.Controller.Turns
import CheckRounds.Proofs.Controller.Undisturbed
import CheckRounds.Proofs.Exchange
import CheckRounds.Proofs.Frame
import CheckRounds.Proofs.Frame.Decoding
import CheckRounds.Proofs.Frame.Reading
import CheckRounds.Proofs.Host.Duties
import CheckRounds.Proofs.Host.Freshness
import CheckRounds.Proofs.Host.Listing
import CheckRounds.Proofs.Host.Reconciliation
import CheckRounds.Proofs.Intervention
import CheckRounds.Proofs.ItemKey
import CheckRounds.Proofs.Json.Characters
import CheckRounds.Proofs.Json.Fields
import CheckRounds.Proofs.Json.Grammar
import CheckRounds.Proofs.Json.Numbers
import CheckRounds.Proofs.Json.Strings
import CheckRounds.Proofs.Json.Writing
import CheckRounds.Proofs.Message.Acknowledgement
import CheckRounds.Proofs.Message.Acknowledgement.Matching
import CheckRounds.Proofs.Message.Acknowledgement.Reading
import CheckRounds.Proofs.Message.Acknowledgement.Spelling
import CheckRounds.Proofs.Message.Acknowledgement.Wording
import CheckRounds.Proofs.Message.Orders
import CheckRounds.Proofs.Message.Refusal
import CheckRounds.Proofs.Message.Reply
import CheckRounds.Proofs.Message.Submission
import CheckRounds.Proofs.Number.Numerals
import CheckRounds.Proofs.Number.Rounding
import CheckRounds.Proofs.Number.Shortest
import CheckRounds.Proofs.Refresh
import CheckRounds.Proofs.Round.Accounting
import CheckRounds.Proofs.Round.Agreement
import CheckRounds.Proofs.Round.Collection
import CheckRounds.Proofs.Round.Crashes
import CheckRounds.Proofs.Round.Crew
import CheckRounds.Proofs.Round.Dispatch
import CheckRounds.Proofs.Round.Due
import CheckRounds.Proofs.Round.Execution
import CheckRounds.Proofs.Round.Interference
import CheckRounds.Proofs.Round.Opening
import CheckRounds.Proofs.Round.Plan
import CheckRounds.Proofs.Schedule.Leaves
import CheckRounds.Proofs.Schedule.Operations
import CheckRounds.Proofs.Schedule.Orderly
import CheckRounds.Proofs.Schedule.Reporting
import CheckRounds.Proofs.Schedule.Usage
import CheckRounds.Proofs.Sweep
import CheckRounds.Proofs.Text.Blanks
import CheckRounds.Proofs.Text.Patterns
import CheckRounds.Proofs.Text.Runs
import CheckRounds.Proofs.Text.Words
import CheckRounds.RefreshSweep
import CheckRounds.Room
import CheckRounds.Round
import CheckRounds.Round.Execution
import CheckRounds.Round.Plan
import CheckRounds.Schedule.Bucket
import CheckRounds.Schedule.Forest
import CheckRounds.Schedule.Scheduler
import CheckRounds.Schedule.Timers
import CheckRounds.Sorted.Map
import CheckRounds.Sorted.Set
import CheckRounds.Startup
import CheckRounds.SystemCheck
import CheckRounds.Text.Blank
import CheckRounds.Text.Caseless
import CheckRounds.Text.Quoted
import CheckRounds.Text.Replacement
import CheckRounds.Text.Shown
import CheckRounds.Time.Duration
import CheckRounds.Time.Instant
import CheckRounds.Time.Stamp
import CheckRounds.World
