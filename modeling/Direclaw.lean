import Direclaw.Runtime.Heartbeat
import Direclaw.Memory.IngestHistory
import Direclaw.Memory.Extractor
import Direclaw.Memory.WorkflowMemory
import Direclaw.Memory.BulletinCitations
import Direclaw.Memory.BulletinBudget
import Direclaw.Memory.SpanCover
import Direclaw.Orchestration.ThreadContext
import Direclaw.Slack.TargetForms
import Direclaw.Lib.NameOrder
import Direclaw.Runtime.BatchOrder
import Direclaw.Queue.OutboundDirectives
import Direclaw.Queue.InboundTags
import Direclaw.Orchestration.StateNames
import Direclaw.Orchestration.AttemptArtifacts
import Direclaw.Orchestration.AttemptPaths
import Direclaw.Orchestration.OutputReports
import Direclaw.Orchestration.ResultEnvelope
import Direclaw.Orchestration.LatestRun
import Direclaw.Orchestration.SafetyLimits
import Direclaw.Orchestration.OpenAttempt
import Direclaw.Orchestration.Cancellation
import Direclaw.Queue.Scheduler
import Direclaw.Queue.Lifecycle
import Direclaw.Queue.Claiming
import Direclaw.Queue.Conservation
import Direclaw.Runtime.QueueWorker
import Direclaw.Runtime.Recovery
import Direclaw.Runtime.RetryBudget
import Direclaw.Runtime.Completion
import Direclaw.Runtime.StartRecovery
import Direclaw.Automation.Isolation
import Direclaw.Automation.SkipMissed
import Direclaw.Automation.Interleaving
import Direclaw.Orchestration.IterationLimit
import Direclaw.Orchestration.RecordConsistency
import Direclaw.Orchestration.ConversationIsolation
import Direclaw.Orchestration.WorkspaceAccess
import Direclaw.Orchestration.Transitions
import Direclaw.Orchestration.SelectorAuthority
import Direclaw.Memory.IngestConservation
import Direclaw.Memory.DeniedSources
import Direclaw.Slack.BackfillProgress
import Direclaw.Slack.EnqueuedOnce
import Direclaw.Slack.AcknowledgedEvents
import Direclaw.Config.FailedSaves
import Direclaw.Runtime.StopFlag
import Direclaw.Runtime.SocketReaders
import Direclaw.Slack.PostedOnce
import Direclaw.Config.WholeCommands
import Direclaw.Automation.ScheduledScope
import Direclaw.Config.RefusedEdits
import Direclaw.Config.StepGraph
import Direclaw.Config.SavableEdits
import Direclaw.Automation.CronNextRun
import Direclaw.Automation.CronGrammar
import Direclaw.Automation.IntervalPhase
import Direclaw.Runtime.DrainOnce
import Direclaw.Runtime.RecoveryLossless
import Direclaw.Orchestration.LatestOutputs
import Direclaw.Orchestration.OwnFiles
import Direclaw.Runtime.FinalMessage
import Direclaw.Runtime.HeartbeatReplies
import Direclaw.Memory.HybridRanking
import Direclaw.LocalLlm.Preprocess
import Direclaw.Local.WaitForReplies
import Direclaw.Slack.ReconnectRequest
import Direclaw.Slack.Credentials
import Direclaw.Automation.JobPatches
import Direclaw.LocalLlm.ModelStore
import Direclaw.App.CatalogAgreement
import Direclaw.Config.MountRepair
import Direclaw.Orchestration.RunIds
import Direclaw.App.WorkflowRunIds
import Direclaw.Lib.Layers
import Direclaw.Orchestration.ReviewDecision
import Direclaw.Lib.OsPath
import Direclaw.Orchestration.SharedRoot
import Direclaw.Queue.AttemptNames
import Direclaw.App.WorkflowInputs
import Direclaw.App.RunRoutes
import Direclaw.Lib.Durable
import Direclaw.Lib.Replacing
import Direclaw.Lib.Histories
import Direclaw.Runtime.WorkerHealth
import Direclaw.Runtime.Supervision
import Direclaw.Runtime.FinalRecord
import Direclaw.Runtime.AtomicWrite
import Direclaw.Local.ChatTui
import Direclaw.Local.Conversation
import Direclaw.Setup.Navigation
import Direclaw.Setup.Session
import Direclaw.Setup.KnownProvider
import Direclaw.Setup.FieldText
import Direclaw.Provider.OutputParse
import Direclaw.Provider.Runner
import Direclaw.Provider.ProcessAccount
import Direclaw.Slack.OutboundPass
