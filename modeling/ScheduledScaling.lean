import ScheduledScaling.Cleanup.Candidate
import ScheduledScaling.Cleanup.Policy
import ScheduledScaling.Cleanup.Reaper
import ScheduledScaling.Config.Address
import ScheduledScaling.Config.Arguments
import ScheduledScaling.Cron.Expression
import ScheduledScaling.Cron.Field
import ScheduledScaling.Cron.Grammar
import ScheduledScaling.Cron.Occurrence
import ScheduledScaling.Cron.Weekday
import ScheduledScaling.Dashboard.Page
import ScheduledScaling.Dashboard.Route
import ScheduledScaling.Dashboard.View
import ScheduledScaling.Decimal.Double
import ScheduledScaling.Decimal.Shortest
import ScheduledScaling.Json.Codec
import ScheduledScaling.Json.Decode
import ScheduledScaling.Json.Document
import ScheduledScaling.Json.Ignored
import ScheduledScaling.Json.Lexeme
import ScheduledScaling.Json.Shape
import ScheduledScaling.Json.Syntax
import ScheduledScaling.Json.Value
import ScheduledScaling.Keyed
import ScheduledScaling.Main
import ScheduledScaling.Object.Kind
import ScheduledScaling.Object.Metadata
import ScheduledScaling.Object.Pod
import ScheduledScaling.Pass.Reconcile
import ScheduledScaling.Plan.Due
import ScheduledScaling.Proofs.Accounts
import ScheduledScaling.Proofs.Annotations
import ScheduledScaling.Proofs.Arbitration
import ScheduledScaling.Proofs.Calendar
import ScheduledScaling.Proofs.Calls
import ScheduledScaling.Proofs.CleanupStep
import ScheduledScaling.Proofs.Clearance
import ScheduledScaling.Proofs.Constant
import ScheduledScaling.Proofs.Coverage
import ScheduledScaling.Proofs.Deadlines
import ScheduledScaling.Proofs.Decoding
import ScheduledScaling.Proofs.DryRun
import ScheduledScaling.Proofs.Due
import ScheduledScaling.Proofs.Eligibility
import ScheduledScaling.Proofs.FieldTexts
import ScheduledScaling.Proofs.Fields
import ScheduledScaling.Proofs.FinalState
import ScheduledScaling.Proofs.Footprints
import ScheduledScaling.Proofs.Formats
import ScheduledScaling.Proofs.Independence
import ScheduledScaling.Proofs.Interleaving
import ScheduledScaling.Proofs.Items
import ScheduledScaling.Proofs.Ledger
import ScheduledScaling.Proofs.Listers
import ScheduledScaling.Proofs.LiveRuns
import ScheduledScaling.Proofs.Lookback
import ScheduledScaling.Proofs.Memory
import ScheduledScaling.Proofs.Monotonicity
import ScheduledScaling.Proofs.NormalForms
import ScheduledScaling.Proofs.Objects
import ScheduledScaling.Proofs.Occurrences
import ScheduledScaling.Proofs.Outages
import ScheduledScaling.Proofs.Passes
import ScheduledScaling.Proofs.PatchedStatus
import ScheduledScaling.Proofs.Pieces
import ScheduledScaling.Proofs.Plans
import ScheduledScaling.Proofs.Quiescence
import ScheduledScaling.Proofs.Readings
import ScheduledScaling.Proofs.Recleaning
import ScheduledScaling.Proofs.Records
import ScheduledScaling.Proofs.Removals
import ScheduledScaling.Proofs.Renumbering
import ScheduledScaling.Proofs.Repeats
import ScheduledScaling.Proofs.Replay
import ScheduledScaling.Proofs.Rescaling
import ScheduledScaling.Proofs.Retries
import ScheduledScaling.Proofs.RoundTrips
import ScheduledScaling.Proofs.Routes
import ScheduledScaling.Proofs.Scaling
import ScheduledScaling.Proofs.Search
import ScheduledScaling.Proofs.Selectors
import ScheduledScaling.Proofs.Series
import ScheduledScaling.Proofs.Statuses
import ScheduledScaling.Proofs.Steps
import ScheduledScaling.Proofs.StoreSides
import ScheduledScaling.Proofs.Timestamps
import ScheduledScaling.Proofs.Traces
import ScheduledScaling.Proofs.TruthfulStatus
import ScheduledScaling.Proofs.Undisturbed
import ScheduledScaling.Proofs.Upcoming
import ScheduledScaling.Proofs.Validation
import ScheduledScaling.Proofs.Wake
import ScheduledScaling.Proofs.Weekdays
import ScheduledScaling.Proofs.Zones
import ScheduledScaling.Remote.Reply
import ScheduledScaling.Remote.Request
import ScheduledScaling.Remote.Resource
import ScheduledScaling.Remote.Store
import ScheduledScaling.Schedule.Definition
import ScheduledScaling.Schedule.Object
import ScheduledScaling.Schedule.Spec
import ScheduledScaling.Schedule.Status
import ScheduledScaling.Schedule.Validation
import ScheduledScaling.Store.Failure
import ScheduledScaling.Store.Memory
import ScheduledScaling.Store.Program
import ScheduledScaling.Text.Base64
import ScheduledScaling.Text.Blank
import ScheduledScaling.Text.Numeral
import ScheduledScaling.Text.Quoted
import ScheduledScaling.Text.Unprintable
import ScheduledScaling.Time.Calendar
import ScheduledScaling.Time.Duration
import ScheduledScaling.Time.Instant
import ScheduledScaling.Time.Timestamp
import ScheduledScaling.Time.Zone
import ScheduledScaling.Time.Zone.History
import ScheduledScaling.Time.Zone.Names
import ScheduledScaling.Word
import ScheduledScaling.Workload.Health
import ScheduledScaling.Workload.Object
import ScheduledScaling.Workload.Scaling
import ScheduledScaling.Yaml.BlockScalar
import ScheduledScaling.Yaml.Directive
import ScheduledScaling.Yaml.Fault
import ScheduledScaling.Yaml.Integers
import ScheduledScaling.Yaml.Item
import ScheduledScaling.Yaml.Printer
import ScheduledScaling.Yaml.Scalar
import ScheduledScaling.Yaml.Tag
import ScheduledScaling.Yaml.Token
