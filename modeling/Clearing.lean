import Clearing.Main
import Clearing.Proofs.Ledger.Identifiers
import Clearing.Rehearsal.Breaker
import Clearing.Rehearsal.Bulkhead
import Clearing.Rehearsal.Calls
import Clearing.Rehearsal.Lookups
import Clearing.Proofs.Guard.Act
import Clearing.Proofs.Guard.History
import Clearing.Proofs.Operation.Frame
import Clearing.Proofs.Processing.Footprint
import Clearing.Proofs.Processing.Course
import Clearing.Proofs.Bookkeeping
import Clearing.Proofs.Crowd
import Clearing.Proofs.Crowd.Submissions
import Clearing.Proofs.Crowd.Books
import Clearing.Proofs.Summaries.Query
import Clearing.Proofs.Summaries.Writers
import Clearing.Proofs.Summaries.Readers
import Clearing.Proofs.Summaries.Freshness
import Clearing.Proofs.Crowd.Script
import Clearing.Proofs.Batch.Split
import Clearing.Proofs.Processing.Calm
import Clearing.Proofs.Batch.Tally
import Clearing.Proofs.Batch.Accounts
import Clearing.Proofs.Batch.Underway
import Clearing.Proofs.Batch.Accounting
import Clearing.Proofs.Schedule
import Clearing.Proofs.Crowd.Turns
import Clearing.Proofs.Crowd.Sessions
import Clearing.Proofs.Batch.Sessions
import Clearing.Proofs.Guard.Window
import Clearing.Proofs.Guard.Trials
import Clearing.Proofs.Guard.Decision
import Clearing.Proofs.Guard.Overbooking
import Clearing.Proofs.Guard.Traffic
import Clearing.Proofs.Guard.Attempts
import Clearing.Proofs.Payload.Sniffing
import Clearing.Proofs.Payload.Text
import Clearing.Proofs.Payload.Envelope
import Clearing.Proofs.Payload.Legacy
import Clearing.Proofs.Payload.Storage
import Clearing.Proofs.Transaction.Document
import Clearing.Proofs.Transaction.Keeping
import Clearing.Proofs.Transaction.Arrival
import Clearing.Proofs.Crowd.Lawful
import Clearing.Proofs.Crowd.Views
import Clearing.Proofs.Crowd.Aborts
import Clearing.Proofs.Batch.Yield
import Clearing.Proofs.Transaction.Ceiling
import Clearing.Proofs.Ledger.Join
import Clearing.Proofs.Guard.Opening
import Clearing.Proofs.Settings.Defaults
import Clearing.Proofs.Guard.Capacity
import Clearing.Proofs.Processing.Deadlines
import Clearing.Proofs.Transaction.Refusal
import Clearing.Proofs.Session.Checks
import Clearing.Proofs.Cache.History
import Clearing.Proofs.Cache.Staleness
import Clearing.Proofs.Batch.Discipline
import Clearing.Proofs.Guard.Neutral
import Clearing.Proofs.Report.Reading
import Clearing.Proofs.Number.Places
import Clearing.Proofs.Transaction.Encoding
import Clearing.Proofs.Crowd.Custody
