import Waybill.CodeUnits
import Waybill.Json
import Waybill.JsonParse
import Waybill.Redis
import Waybill.Process
import Waybill.Circuit
import Waybill.TokenBucket
import Waybill.Admission
import Waybill.World
import Waybill.Worker
import Waybill.Publisher
import Waybill.Api
import Waybill.Phases
import Waybill.System
import Waybill.Custody
import Waybill.Effects
import Waybill.Facts
import Waybill.Safety
import Waybill.Terminal
import Waybill.Closing
import Waybill.Attempts
import Waybill.Schedule
import Waybill.Retries
import Waybill.DeadLetters
import Waybill.CircuitHistory
import Waybill.Probe
import Waybill.Reopen
import Waybill.Forgetting
import Waybill.LostFailures
import Waybill.InFlight
import Waybill.Replays
import Waybill.SharedBucket
import Waybill.Ownership
import Waybill.Heartbeats
import Waybill.Envelope
import Waybill.Backlog
import Waybill.SentOnce
import Waybill.Conservation
import Waybill.Selection
import Waybill.RetryAfter
import Waybill.Archive
import Waybill.DeliveryBatch
import Waybill.Renewals
import Waybill.Cursors
import Waybill.Snapshots
import Waybill.Signature
import Waybill.ArchiveStream
import Waybill.NumberTexts
import Waybill.Guard
import Waybill.GuardRuns
import Waybill.Leases
import Waybill.BacklogSampler
import Waybill.Monitoring
import Waybill.MonitoringReports
import Waybill.MonitoringHandler
import Waybill.Keyset
import Waybill.Pages
import Waybill.Readers
import Waybill.Dashboard
import Waybill.Answers
import Waybill.Identity
import Waybill.SignIn
import Waybill.SignInRuns
import Waybill.Access
