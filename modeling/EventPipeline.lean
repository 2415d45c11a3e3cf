import EventPipeline.Computation.Transition
import EventPipeline.Computation.Table
import EventPipeline.Computation.Framing
import EventPipeline.Computation.Binary64
import EventPipeline.Computation.Family
import EventPipeline.Computation.Inbox
import EventPipeline.Computation.Columns
import EventPipeline.Computation.DirectExchange
import EventPipeline.Computation.History
import EventPipeline.Computation.Countdown
import EventPipeline.Computation.ExpiringCache
import EventPipeline.Computation.Trials
import EventPipeline.Computation.Partition
import EventPipeline.Computation.Draining
import EventPipeline.Computation.Queries
import EventPipeline.Computation.Utf8
import EventPipeline.Computation.Retrying
import EventPipeline.Model.Text
import EventPipeline.Model.Json
import EventPipeline.Model.Settings
import EventPipeline.Model.Rows
import EventPipeline.Model.Intake
import EventPipeline.Model.Delivery
import EventPipeline.Model.Schema
import EventPipeline.Program.Consumer
import EventPipeline.Program.Reconciler
import EventPipeline.Program.Api
import EventPipeline.Program.Backoff
import EventPipeline.Program.Worker
import EventPipeline.Program.System
import EventPipeline.Program.Batch
import EventPipeline.Program.Migration
import EventPipeline.Program.Signing
import EventPipeline.Program.Publish
import EventPipeline.Program.Messaging
import EventPipeline.Program.Enricher
import EventPipeline.Program.PatchRequests
import EventPipeline.Program.MessageCall
import EventPipeline.Program.Endpoints
import EventPipeline.Program.Subscribers
import EventPipeline.Program.Reads
import EventPipeline.Program.Receiver
import EventPipeline.Program.Metrics
import EventPipeline.Program.EnrichRetry
import EventPipeline.Program.SubscriberApi
import EventPipeline.Interface.DeliverySteps
import EventPipeline.Interface.IntakeSteps
import EventPipeline.Interface.SystemSteps
import EventPipeline.Interface.CallSteps
import EventPipeline.Interface.KeyRows
import EventPipeline.Interface.AttemptRows
import EventPipeline.Interface.BackoffDates
import EventPipeline.Interface.BatchSteps
import EventPipeline.Interface.SubscriberRows
import EventPipeline.Interface.MessagingSteps
import EventPipeline.Interface.PatchSteps
import EventPipeline.Interface.MessageCallSteps
import EventPipeline.Interface.ProviderSteps
import EventPipeline.Interface.SubscriberApiSteps
import EventPipeline.Analysis.IntakeInvariant
import EventPipeline.Analysis.ExactlyOnceAcceptance
import EventPipeline.Analysis.DatabaseErrors
import EventPipeline.Analysis.StuckEvents
import EventPipeline.Analysis.EventStatus
import EventPipeline.Analysis.ClaimLocks
import EventPipeline.Analysis.EnrichmentBeforeDelivery
import EventPipeline.Analysis.ReEnqueueCap
import EventPipeline.Analysis.DeliveredIsFinal
import EventPipeline.Analysis.OneWorkerPerDelivery
import EventPipeline.Analysis.BatchFinalisation
import EventPipeline.Analysis.SchemaAgreement
import EventPipeline.Analysis.Signatures
import EventPipeline.Analysis.PublishLimits
import EventPipeline.Analysis.StorableRequests
import EventPipeline.Analysis.AcceptedReachesQueue
import EventPipeline.Analysis.AttemptCounter
import EventPipeline.Analysis.Recovery
import EventPipeline.Analysis.SingleWorker
import EventPipeline.Analysis.DeletedSubscribers
import EventPipeline.Analysis.CurrentEnrichment
import EventPipeline.Analysis.WebhookId
import EventPipeline.Analysis.PayloadIntegrity
import EventPipeline.Analysis.RecordConsistency
import EventPipeline.Analysis.RedeliveredMessages
import EventPipeline.Analysis.ReconcilerInvariant
import EventPipeline.Analysis.ReconciliationEnds
import EventPipeline.Analysis.KeyedPatch
import EventPipeline.Analysis.DuplicatePatch
import EventPipeline.Analysis.CacheEviction
import EventPipeline.Analysis.BackoffSafety
import EventPipeline.Analysis.RetryRun
import EventPipeline.Analysis.MalformedMessages
import EventPipeline.Analysis.EndpointUrls
import EventPipeline.Analysis.ClosedRows
import EventPipeline.Analysis.DeliveryEvidence
import EventPipeline.Analysis.ForeignKeys
import EventPipeline.Analysis.Quiescence
import EventPipeline.Analysis.WebhookAuthenticity
import EventPipeline.Analysis.EventReads
import EventPipeline.Analysis.DeliveryReads
import EventPipeline.Analysis.ValueFlow
import EventPipeline.Analysis.ReceivedWebhooks
import EventPipeline.Analysis.DeliveryCounters
import EventPipeline.Analysis.MessageCounters
import EventPipeline.Analysis.DeliveryCompletion
import EventPipeline.Analysis.EnrichmentCalls
import EventPipeline.Analysis.ServedRecipients
import EventPipeline.Analysis.SubscriberRegistry
import EventPipeline.Analysis.RegistryReplay
