import GpuInference.EffectProtocol
import GpuInference.RedisCommands
import GpuInference.RateConcurrency
import GpuInference.RateQuota
import GpuInference.ChatSchema
import GpuInference.TokenAccounting
import GpuInference.AuthKeys
import GpuInference.BatchStore
import GpuInference.EffectBlock
import GpuInference.BatchWorker
import GpuInference.BatchProtocol
import GpuInference.BatchTable
import GpuInference.BatchSystem
import GpuInference.EffectGenerator
import GpuInference.PostgresCalls
import GpuInference.SessionScope
import GpuInference.BatchRaces
import GpuInference.BatchRecovery
import GpuInference.BatchRoutes
import GpuInference.BatchTenancy
import GpuInference.ChatHandler
import GpuInference.RequestBooks
import GpuInference.ChatAccounting
import GpuInference.QuotaCharge
import GpuInference.PayloadBounds
import GpuInference.AnalyticsCollector
import GpuInference.AnalyticsFlusher
import GpuInference.AnalyticsDelivery
import GpuInference.AnalyticsWiring
import GpuInference.RateExpiry
import GpuInference.BatchRoundTrip
import GpuInference.AccountingParity
import GpuInference.AllowedModels
import GpuInference.EventStream
import GpuInference.StreamProxy
import GpuInference.ChatCalls
import GpuInference.StoreAgreement
import GpuInference.RequestIds
import GpuInference.JobStateMachine
import GpuInference.RecoveryScan
import GpuInference.EffectTrace
import GpuInference.RateAdmission
import GpuInference.AdmissionRollback
import GpuInference.LeaseLifecycle
import GpuInference.EffectCalm
import GpuInference.WorkerAdmission
import GpuInference.JobSettlement
import GpuInference.HandlerAdmission
import GpuInference.EffectInversion
import GpuInference.StreamRun
import GpuInference.PartialUsage
import GpuInference.StreamStatus
import GpuInference.StreamCleanup
import GpuInference.UsageReading
import GpuInference.RequeueOrder
import GpuInference.AnalyticsShutdown
import GpuInference.FlushCancellation
import GpuInference.OverflowCounters
import GpuInference.HeartbeatLoop
import GpuInference.HeartbeatOrder
import GpuInference.LineContent
import GpuInference.RateWindow
import GpuInference.RegexMatch
import GpuInference.SentryScrub
import GpuInference.BearerScan
import GpuInference.KeyScan
import GpuInference.UrlScan
import GpuInference.CredentialScrub
import GpuInference.ScrubSecrecy
import GpuInference.RegexScan
import GpuInference.ScrubIdempotence
import GpuInference.DelimitedText
import GpuInference.PromptHash
import GpuInference.RedactedEntries
import GpuInference.BatchResults
import GpuInference.BatchDrain
import GpuInference.HttpStack
import GpuInference.HttpResponses
import GpuInference.HttpMetrics
import GpuInference.EffectErasure
import GpuInference.SentryReports
import GpuInference.SentryTransparency
import GpuInference.ChatEndpoint
import GpuInference.JsonText
import GpuInference.AnalyticsSpool
import GpuInference.LogFormat
import GpuInference.AppResources
import GpuInference.ShellWords
import GpuInference.VllmRuntime
import GpuInference.VllmClient
