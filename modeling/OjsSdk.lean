import OjsSdk.TypedArgs
import OjsSdk.HttpPanics
import OjsSdk.WorkerPermits
import OjsSdk.WorkerCapacity
import OjsSdk.WorkerPanics
import OjsSdk.WorkerSettlement
import OjsSdk.WorkerExits
import OjsSdk.WorkerActiveJobs
import OjsSdk.WorkerHeartbeat
import OjsSdk.WorkerStops
import OjsSdk.ArgsRoundTrip
import OjsSdk.WorkflowGraph
import OjsSdk.EnqueueValidation
import OjsSdk.RequestIds
import OjsSdk.DurableReplay
import OjsSdk.DurableFailures
import OjsSdk.DurableLog
import OjsSdk.WireTypes
import OjsSdk.LambdaRetries
import OjsSdk.MiddlewareOnion
import OjsSdk.FakeStoreMatching
import OjsSdk.FakeStoreRun
import OjsSdk.HttpRetries
import OjsSdk.EncryptionRoundTrip
import OjsSdk.SseFraming
import OjsSdk.SseChunking
import OjsSdk.LastWriter
import OjsSdk.OptionOrder
import OjsSdk.OptionDurations
import OjsSdk.EncryptionFailures
import OjsSdk.EncryptionLayers
import OjsSdk.Utf8Lines
import OjsSdk.SseTerminators
import OjsSdk.SeparatedWords
import OjsSdk.NameGrammar
import OjsSdk.PercentCoding
import OjsSdk.ClientPaths
import OjsSdk.FakeStoreDrain
import OjsSdk.CheckedWords
import OjsSdk.Gregorian
import OjsSdk.CivilDays
import OjsSdk.Recorder
import OjsSdk.JoinedWords
import OjsSdk.Attest
import OjsSdk.ErrorVerdicts
import OjsSdk.BoundedChannel
import OjsSdk.SubscribeChannel
import OjsSdk.Suspension
import OjsSdk.CommonMiddleware
import OjsSdk.Interleaving
import OjsSdk.JobGauges
import OjsSdk.Checkpoints
import OjsSdk.FakeStoreHistory
import OjsSdk.SerdeKeeps
import OjsSdk.RequestBodies
import OjsSdk.UrlSending
import OjsSdk.UrlTarget
import OjsSdk.Operations
import OjsSdk.ResponseTypes
import OjsSdk.ClientCalls
import OjsSdk.EncryptedDelivery
import OjsSdk.LambdaInvocations
import OjsSdk.TextOrder
import OjsSdk.RecorderTraces
import OjsSdk.WorkerRequests
import OjsSdk.Agent
import OjsSdk.AgentRequests
import OjsSdk.Connections
import OjsSdk.WorkerShutdown
