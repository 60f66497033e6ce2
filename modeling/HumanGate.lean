import HumanGate.Billing.Concurrent
import HumanGate.Billing.Entitlement
import HumanGate.Billing.Failures
import HumanGate.Billing.Ordering
import HumanGate.Billing.Replaced
import HumanGate.Companion.Attention
import HumanGate.Companion.Cancel
import HumanGate.Companion.Layers
import HumanGate.Companion.Skinning
import HumanGate.Companion.Speech
import HumanGate.Content.Fingerprint
import HumanGate.Content.Parity
import HumanGate.Content.Withdrawn
import HumanGate.Custody.Chain
import HumanGate.Custody.Content
import HumanGate.Custody.Production
import HumanGate.Custody.Research
import HumanGate.Custody.Strategy
import HumanGate.Dispatch.Budgets
import HumanGate.Dispatch.Candidates
import HumanGate.Dispatch.HandOuts
import HumanGate.Dispatch.HeadOfLine
import HumanGate.Dispatch.InFlight
import HumanGate.Dispatch.Isolation
import HumanGate.Dispatch.Limits
import HumanGate.Dispatch.Running
import HumanGate.Docket.Attempts
import HumanGate.Docket.Controller
import HumanGate.Docket.Exhausted
import HumanGate.Docket.Ledger
import HumanGate.Docket.Operations
import HumanGate.Docket.Queue
import HumanGate.Docket.Reservations
import HumanGate.Docket.Rows
import HumanGate.Docket.Starts
import HumanGate.Docket.Token
import HumanGate.Docket.Turns
import HumanGate.Docket.Writes
import HumanGate.Edge.InMemory
import HumanGate.Edge.Shared
import HumanGate.Fleet.Concurrency
import HumanGate.Fleet.Draining
import HumanGate.Fleet.Effects
import HumanGate.Fleet.Exclusive
import HumanGate.Fleet.Execution
import HumanGate.Fleet.Fencing
import HumanGate.Fleet.Leases
import HumanGate.Fleet.Load
import HumanGate.Fleet.Moves
import HumanGate.Fleet.OffDuty
import HumanGate.Fleet.Reaping
import HumanGate.Fleet.Requests
import HumanGate.Fleet.Revocation
import HumanGate.Fleet.Slots
import HumanGate.Fleet.Tokens
import HumanGate.Jobs.Fairness
import HumanGate.Jobs.Letters
import HumanGate.Jobs.Ownership
import HumanGate.Jobs.Pressure
import HumanGate.Jobs.Requeued
import HumanGate.Jobs.Retry
import HumanGate.Jobs.RoundRobin
import HumanGate.Jobs.Rows
import HumanGate.Jobs.Tick
import HumanGate.Lib.Answers
import HumanGate.Lib.Archive
import HumanGate.Lib.Batch
import HumanGate.Lib.Budget
import HumanGate.Lib.Calendar
import HumanGate.Lib.Changes
import HumanGate.Lib.Family
import HumanGate.Lib.FixedWindow
import HumanGate.Lib.Flood
import HumanGate.Lib.Interleaving
import HumanGate.Lib.Itinerary
import HumanGate.Lib.Joins
import HumanGate.Lib.OrderedDict
import HumanGate.Lib.Outcome
import HumanGate.Lib.Ranking
import HumanGate.Lib.Register
import HumanGate.Lib.Rounding
import HumanGate.Lib.RowSecurity
import HumanGate.Lib.Sql
import HumanGate.Lib.System
import HumanGate.Lib.Table
import HumanGate.Lib.Tenures
import HumanGate.Lib.Ties
import HumanGate.Lib.Weights
import HumanGate.Lib.Words
import HumanGate.Members.LastAdmin
import HumanGate.Members.Lockout
import HumanGate.Model.Automation
import HumanGate.Model.AutomationLease
import HumanGate.Model.Backpressure
import HumanGate.Model.Billing
import HumanGate.Model.CandidateQuery
import HumanGate.Model.Claiming
import HumanGate.Model.Client
import HumanGate.Model.ContentDepartment
import HumanGate.Model.ContentJob
import HumanGate.Model.Controller
import HumanGate.Model.Conversation
import HumanGate.Model.Data
import HumanGate.Model.Desk
import HumanGate.Model.Dispatcher
import HumanGate.Model.DraftDesk
import HumanGate.Model.Eligibility
import HumanGate.Model.Gateway
import HumanGate.Model.Governance
import HumanGate.Model.HandOut
import HumanGate.Model.Json
import HumanGate.Model.LayerMask
import HumanGate.Model.Leasing
import HumanGate.Model.LeonSpeech
import HumanGate.Model.LeonState
import HumanGate.Model.LeonVoice
import HumanGate.Model.LocalAuth
import HumanGate.Model.Membership
import HumanGate.Model.MeshRig
import HumanGate.Model.Newsroom
import HumanGate.Model.Operations
import HumanGate.Model.Outbox
import HumanGate.Model.Production
import HumanGate.Model.Publication
import HumanGate.Model.RateLimit
import HumanGate.Model.Reaper
import HumanGate.Model.Recovery
import HumanGate.Model.Registry
import HumanGate.Model.Relay
import HumanGate.Model.Research
import HumanGate.Model.Review
import HumanGate.Model.ReviewTxn
import HumanGate.Model.Scheduler
import HumanGate.Model.Spend
import HumanGate.Model.Strategy
import HumanGate.Model.Tenants
import HumanGate.Model.Text
import HumanGate.Model.Webhook
import HumanGate.Model.Workers
import HumanGate.Model.Workflow
import HumanGate.Outbox.Independence
import HumanGate.Outbox.Offers
import HumanGate.Outbox.Relay
import HumanGate.Outbox.Roles
import HumanGate.Outbox.Sequence
import HumanGate.Review.Approval
import HumanGate.Review.ContentJobs
import HumanGate.Review.Delivery
import HumanGate.Review.Entering
import HumanGate.Review.Final
import HumanGate.Review.Openings
import HumanGate.Review.Publishing
import HumanGate.Review.Timeout
import HumanGate.Run.Backstage
import HumanGate.Run.Board
import HumanGate.Run.Conditions
import HumanGate.Run.Operations
import HumanGate.Run.Progress
import HumanGate.Run.Routing
import HumanGate.Run.Stages
import HumanGate.Run.StorageOrder
import HumanGate.Run.Terminal
import HumanGate.Run.Writes
import HumanGate.Spend.Books
import HumanGate.Spend.Caps
import HumanGate.Spend.Hold
import HumanGate.Spend.ReadCommitted
import HumanGate.Spend.Reported
import HumanGate.Tenancy.Boundary
import HumanGate.Tenancy.Export
import HumanGate.Tenancy.Withdrawal
import HumanGate.Voice.Accounting
import HumanGate.Voice.Blips
import HumanGate.Voice.Listening
import HumanGate.Voice.Settlement
