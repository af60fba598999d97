import Kryvaracode.Accounts
import Kryvaracode.Adjudication
import Kryvaracode.Aegis
import Kryvaracode.AppendedCode
import Kryvaracode.AtomicAdd
import Kryvaracode.AuditRedaction
import Kryvaracode.Augmenter
import Kryvaracode.Backoff
import Kryvaracode.Base64
import Kryvaracode.BlockLayout
import Kryvaracode.BlockedAddresses
import Kryvaracode.Broadcasts
import Kryvaracode.BusLifecycle
import Kryvaracode.CaseBlind
import Kryvaracode.ChunkBound
import Kryvaracode.ChunkWords
import Kryvaracode.Chunker
import Kryvaracode.CodeValidation
import Kryvaracode.Coordinator
import Kryvaracode.CoordinatorIsolation
import Kryvaracode.DatasetNames
import Kryvaracode.DeadDependencies
import Kryvaracode.Deregistration
import Kryvaracode.DistillReport
import Kryvaracode.Docstrings
import Kryvaracode.DoubleFiring
import Kryvaracode.E2BSandbox
import Kryvaracode.EventBus
import Kryvaracode.Evolver
import Kryvaracode.Exceptions
import Kryvaracode.FailureDetector
import Kryvaracode.FailureIsolation
import Kryvaracode.FailureTrigger
import Kryvaracode.Fanout
import Kryvaracode.FileDisk
import Kryvaracode.FileTools
import Kryvaracode.FileTree
import Kryvaracode.ForgeAtomicity
import Kryvaracode.ForgeManager
import Kryvaracode.FreeText
import Kryvaracode.Gatekeeper
import Kryvaracode.Heartbeats
import Kryvaracode.HiddenText
import Kryvaracode.InMemorySearch
import Kryvaracode.InsertionDict
import Kryvaracode.IpAddresses
import Kryvaracode.JobTurns
import Kryvaracode.JsonFront
import Kryvaracode.JsonReader
import Kryvaracode.JsonRoundTrip
import Kryvaracode.JsonText
import Kryvaracode.JsonTrace
import Kryvaracode.LearnedRules
import Kryvaracode.LiveJobs
import Kryvaracode.Lockout
import Kryvaracode.LoginRaces
import Kryvaracode.LongSentences
import Kryvaracode.LossyUtf8
import Kryvaracode.MemoryGraph
import Kryvaracode.MemoryInvariant
import Kryvaracode.MemorySearch
import Kryvaracode.MessageBus
import Kryvaracode.ModelBinding
import Kryvaracode.ModelRegistrations
import Kryvaracode.ModelRegistry
import Kryvaracode.PacedJobs
import Kryvaracode.Pacing
import Kryvaracode.PassedArguments
import Kryvaracode.PasswordHashes
import Kryvaracode.PasswordPolicy
import Kryvaracode.PasswordReset
import Kryvaracode.PathWaiver
import Kryvaracode.PatternSpacing
import Kryvaracode.Patterns
import Kryvaracode.Promotion
import Kryvaracode.PromotionFailures
import Kryvaracode.QuotedWords
import Kryvaracode.RateGrammar
import Kryvaracode.RateLimiter
import Kryvaracode.ReadCommitted
import Kryvaracode.RealPaths
import Kryvaracode.RecentHistory
import Kryvaracode.RecentItems
import Kryvaracode.Reentrancy
import Kryvaracode.RefreshTokens
import Kryvaracode.ResetEnumeration
import Kryvaracode.RetrainStatus
import Kryvaracode.Retriever
import Kryvaracode.RetryBudget
import Kryvaracode.RunShell
import Kryvaracode.RunningTasks
import Kryvaracode.Runs
import Kryvaracode.Sandbox
import Kryvaracode.SandboxResults
import Kryvaracode.Scheduler
import Kryvaracode.ScopedPaths
import Kryvaracode.Separated
import Kryvaracode.Sessions
import Kryvaracode.ShellLine
import Kryvaracode.ShellPolicy
import Kryvaracode.Simulator
import Kryvaracode.SlidingWindow
import Kryvaracode.SovereignManager
import Kryvaracode.SparseCoordinates
import Kryvaracode.SparseEmbedder
import Kryvaracode.SparseWeights
import Kryvaracode.StablePaths
import Kryvaracode.StableTop
import Kryvaracode.Starvation
import Kryvaracode.StateExpiry
import Kryvaracode.StateReplay
import Kryvaracode.StateStore
import Kryvaracode.StatusRegistry
import Kryvaracode.SwarmEngine
import Kryvaracode.Synthesizer
import Kryvaracode.TaskDependencies
import Kryvaracode.TaskRuns
import Kryvaracode.TaskWaiting
import Kryvaracode.Tasks
import Kryvaracode.TerminalTasks
import Kryvaracode.Tickets
import Kryvaracode.ToolInvocation
import Kryvaracode.ToolVerifier
import Kryvaracode.TopicSegments
import Kryvaracode.Transactions
import Kryvaracode.TreeWalk
import Kryvaracode.UnicodeText
import Kryvaracode.UploadFailures
import Kryvaracode.VersionChains
import Kryvaracode.WorkerRuns
import Kryvaracode.Workflow
