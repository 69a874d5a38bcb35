import WebhookProcessor.Relational.Table
import WebhookProcessor.Transition.Runs
import WebhookProcessor.Concurrency.Pool
import WebhookProcessor.Concurrency.Counters
import WebhookProcessor.Concurrency.LockOrder
import WebhookProcessor.Queueing.HeadOfLine
import WebhookProcessor.Queueing.Deadlines
import WebhookProcessor.Queueing.Custody
import WebhookProcessor.Queueing.Latest
import WebhookProcessor.Numeric.Binary64
import WebhookProcessor.Numeric.Rounding
import WebhookProcessor.Numeric.Shortest
import WebhookProcessor.Json.Value
import WebhookProcessor.Json.Text
import WebhookProcessor.Numeric.Decimal
import WebhookProcessor.Exposition.Text
import WebhookProcessor.Machine.Int64
import WebhookProcessor.Model.Data
import WebhookProcessor.Model.EventStore
import WebhookProcessor.Model.Actors
import WebhookProcessor.Model.System
import WebhookProcessor.Model.Calls
import WebhookProcessor.Model.Outbox
import WebhookProcessor.Model.Replay
import WebhookProcessor.Model.Config
import WebhookProcessor.Model.RetryCycle
import WebhookProcessor.Model.DeadLetterList
import WebhookProcessor.Model.Metrics
import WebhookProcessor.Model.Delivery
import WebhookProcessor.Model.Latency
import WebhookProcessor.Model.Queue
import WebhookProcessor.Model.Payloads
import WebhookProcessor.Model.Process
import WebhookProcessor.Model.Intake
import WebhookProcessor.Model.Scrapes
import WebhookProcessor.Model.Exposition
import WebhookProcessor.Proofs.StoreViews
import WebhookProcessor.Proofs.StepEffects
import WebhookProcessor.Proofs.ActorEffects
import WebhookProcessor.Proofs.HistoryEffects
import WebhookProcessor.Proofs.Transactions
import WebhookProcessor.Proofs.LifeCycle
import WebhookProcessor.Proofs.ExclusiveProcessing
import WebhookProcessor.Proofs.ClaimedBatches
import WebhookProcessor.Proofs.Content
import WebhookProcessor.Proofs.Representation
import WebhookProcessor.Proofs.Replays
import WebhookProcessor.Proofs.SchedulerItems
import WebhookProcessor.Proofs.AutoRetry
import WebhookProcessor.Proofs.RetryBudget
import WebhookProcessor.Proofs.RetryAccounting
import WebhookProcessor.Proofs.DeadLetters
import WebhookProcessor.Proofs.Publication
import WebhookProcessor.Proofs.NoStranding
import WebhookProcessor.Proofs.OutboxProgress
import WebhookProcessor.Proofs.ManualReplay
import WebhookProcessor.Proofs.EntryPoints
import WebhookProcessor.Proofs.Configuration
import WebhookProcessor.Proofs.RetryDelay
import WebhookProcessor.Proofs.RetryLoop
import WebhookProcessor.Proofs.Durations
import WebhookProcessor.Proofs.Deliveries
import WebhookProcessor.Proofs.DeliveryRuns
import WebhookProcessor.Proofs.Settlement
import WebhookProcessor.Proofs.Connections
import WebhookProcessor.Proofs.PayloadNumbers
import WebhookProcessor.Proofs.Latency
import WebhookProcessor.Proofs.Query
import WebhookProcessor.Proofs.Intake
import WebhookProcessor.Proofs.IntakeRuns
import WebhookProcessor.Proofs.Exposition
import WebhookProcessor.Proofs.Scrapes
import WebhookProcessor.Proofs.RetryCycles
import WebhookProcessor.Proofs.LockOrder
import WebhookProcessor.Proofs.PartyProgress
import WebhookProcessor.Proofs.EventProgress
import WebhookProcessor.Proofs.RetryCycleRuns
import WebhookProcessor.Proofs.DeadLetterLists
import WebhookProcessor.Proofs.Backlog
import WebhookProcessor.Proofs.Backpressure
import WebhookProcessor.Proofs.Shutdown
import WebhookProcessor.Proofs.ShutdownProgress
