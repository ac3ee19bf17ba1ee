import DistTaskSystem.Library.Countdown
import DistTaskSystem.Common.Uuid
import DistTaskSystem.Common.Task
import DistTaskSystem.Common.Redis
import DistTaskSystem.Common.RedisKeys
import DistTaskSystem.Common.CompleteTask
import DistTaskSystem.ApiServer.DagPipeline
import DistTaskSystem.ApiServer.Publication
import DistTaskSystem.ApiServer.DagGraph
import DistTaskSystem.Common.Schema
import DistTaskSystem.Scheduler.TaskRepository
import DistTaskSystem.Scheduler.DbBatcher
import DistTaskSystem.Scheduler.SchedulerService
import DistTaskSystem.Scheduler.DagEngine
import DistTaskSystem.ApiServer.BatchItem
import DistTaskSystem.Guarantees.DagEngine
import DistTaskSystem.Client.DagBuilder
import DistTaskSystem.Guarantees.PublicationOrder
import DistTaskSystem.Guarantees.Reports
import DistTaskSystem.ApiServer.TaskSubmitter
import DistTaskSystem.ApiServer.FlushBatch
import DistTaskSystem.ApiServer.Published
import DistTaskSystem.ApiServer.ProcessBatch
import DistTaskSystem.Guarantees.Submission
import DistTaskSystem.Guarantees.Idempotency
import DistTaskSystem.Cli.Validator
import DistTaskSystem.Guarantees.ClientRequests
import DistTaskSystem.Guarantees.WriteBehind
import DistTaskSystem.Scheduler.Reporting
import DistTaskSystem.Guarantees.FlushTiming
import DistTaskSystem.ApiServer.FlusherLoop
import DistTaskSystem.Guarantees.SubmissionQueue
import DistTaskSystem.Common.ConsumerGroup
import DistTaskSystem.Guarantees.GroupStart
import DistTaskSystem.Scheduler.WorkerManager
import DistTaskSystem.Worker.WorkerService
import DistTaskSystem.Scheduler.SchedulerLoop
import DistTaskSystem.Guarantees.PoisonTask
import DistTaskSystem.Scheduler.Cluster
import DistTaskSystem.Guarantees.InflightAccounting
import DistTaskSystem.Scheduler.TaskGroup
import DistTaskSystem.Guarantees.DoubleDispatch
import DistTaskSystem.Guarantees.AckSoundness
import DistTaskSystem.Guarantees.TaskLoss
import DistTaskSystem.Library.TwoRuns
import DistTaskSystem.Guarantees.JobIsolation
import DistTaskSystem.Common.DatabasePool
import DistTaskSystem.Library.Parties
import DistTaskSystem.Guarantees.ConnectionPool
import DistTaskSystem.Common.ThreadPool
import DistTaskSystem.Guarantees.ThreadPool
import DistTaskSystem.Guarantees.Backpressure
import DistTaskSystem.Guarantees.Membership
import DistTaskSystem.Guarantees.TaskTransport
import DistTaskSystem.Guarantees.DualWrite
import DistTaskSystem.Guarantees.CompletionOrder
import DistTaskSystem.ApiServer.JobQueryHandler
import DistTaskSystem.Guarantees.JobQuery
import DistTaskSystem.Guarantees.LoadShadow
import DistTaskSystem.Guarantees.CycleChecks
import DistTaskSystem.Guarantees.Retries
import DistTaskSystem.Guarantees.RescueScan
import DistTaskSystem.Guarantees.LoadGap
import DistTaskSystem.Guarantees.BulkFlush
import DistTaskSystem.Guarantees.ExecutionReports
import DistTaskSystem.Guarantees.JobState
import DistTaskSystem.Guarantees.JsonStruct
import DistTaskSystem.Guarantees.Timestamps
import DistTaskSystem.Guarantees.KeyExpiry
import DistTaskSystem.ApiServer.AsyncServer
import DistTaskSystem.Guarantees.AsyncCalls
import DistTaskSystem.Client.GrpcClient
import DistTaskSystem.Guarantees.AsyncSubmission
import DistTaskSystem.ApiServer.ServerShutdown
import DistTaskSystem.Guarantees.GracefulShutdown
import DistTaskSystem.Client.Coroutine
import DistTaskSystem.Guarantees.CoroutineCalls
import DistTaskSystem.ApiWeb.HandleDagSubmit
import DistTaskSystem.Guarantees.WebRequests
import DistTaskSystem.Guarantees.Registration
import DistTaskSystem.Guarantees.SelfHealing
import DistTaskSystem.ApiServer.BatchGraph
import DistTaskSystem.Guarantees.JobLifecycle
import DistTaskSystem.Guarantees.JobOutcome
import DistTaskSystem.Guarantees.StoreWriters
import DistTaskSystem.Common.PoolOwner
import DistTaskSystem.Guarantees.MemberLifetime
import DistTaskSystem.Worker.NodeProcess
import DistTaskSystem.Guarantees.WorkerShutdown
import DistTaskSystem.Guarantees.WorkerFate
