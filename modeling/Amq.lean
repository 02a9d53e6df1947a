import Amq.Transition.Machine
import Amq.Transition.Refinement
import Amq.Transition.KeyedLock
import Amq.Transition.LockOccupancy
import Amq.Transition.Monitor
import Amq.Transition.Clock
import Amq.Transition.Simulation
import Amq.Transition.StoredTags
import Amq.Broker.ExpiringQueue
import Amq.Broker.WorkQueue
import Amq.Broker.ExchangeBroker
import Amq.Broker.NamedQueues
import Amq.JsNumber
import Amq.Json
import Amq.MessageRelevancyChecker
import Amq.Core.AmqpConnection
import Amq.Core.AmqpConnectionInitializer
import Amq.Core.ConnectionAttempts
import Amq.Core.CancelledInitializations
import Amq.Core.AmqpConnectionWrapper
import Amq.Core.ConnectionOwnership
import Amq.Core.ExecuteCall
import Amq.Core.Executor
import Amq.Core.ExecutorCallbacks
import Amq.Core.ChannelScopedCalls
import Amq.Core.CurrentChannel
import Amq.Core.ConsumeQueue
import Amq.Core.CallEffects
import Amq.Core.AmqpSystem
import Amq.Core.ChannelCustody
import Amq.Core.WrapperMoves
import Amq.Core.WrapperOrder
import Amq.Core.SystemSteps
import Amq.Core.SystemCalls
import Amq.Core.SystemShutdown
import Amq.Core.Transparency
import Amq.Core.LostWakeup
import Amq.Core.RepeatedInvocations
import Amq.Core.CommandExecutions
import Amq.Core.RetryBudget
import Amq.Core.ConnectionIsolation
import Amq.Core.ResourceContainer
import Amq.Core.AmqpDisposer
import Amq.Core.ConnectionLoss
import Amq.Core.ConnectionOperations
import Amq.Core.ServerConnection
import Amq.Jobs.JobHandlerManager
import Amq.Jobs.Scheduler
import Amq.Jobs.AttemptRun
import Amq.Jobs.JobServer
import Amq.Jobs.JobServerLock
import Amq.Jobs.JobServerAttempts
import Amq.Jobs.AttemptFate
import Amq.Jobs.AttemptRetries
import Amq.Jobs.JobRetryQueueProvider
import Amq.Jobs.JobQueueInitializer
import Amq.Jobs.JobClient
import Amq.Jobs.FailedInitialization
import Amq.Jobs.JobMessages
import Amq.Jobs.RetryAccounts
import Amq.Jobs.RetryChain
import Amq.Jobs.RetryDelayCalculators
import Amq.Jobs.AcknowledgedRuns
import Amq.Jobs.JobSystem
import Amq.Jobs.JobOrigins
import Amq.Jobs.JobNetwork
import Amq.Jobs.JobTopology
import Amq.Jobs.QueueView
import Amq.Jobs.QueueRetries
import Amq.Jobs.QueueIsolation
import Amq.Jobs.ConnectedJobs
import Amq.Rpc.CommandHandlerManager
import Amq.Rpc.CommandRun
import Amq.Rpc.RpcServer
import Amq.Rpc.CommandManager
import Amq.Rpc.ReplyQueueConsumer
import Amq.Rpc.CommandSender
import Amq.Rpc.CommandQueueInitializer
import Amq.Rpc.CommandOutcomes
import Amq.Rpc.Correlation
import Amq.Rpc.FirstOutcome
import Amq.Rpc.CommandsInFlight
import Amq.Rpc.ReplyBeforeAcknowledge
import Amq.Rpc.ErrorSerializer
import Amq.Rpc.AnsweredCalls
import Amq.Rpc.RepliedRuns
import Amq.Rpc.RpcSystem
import Amq.Rpc.SentCommands
import Amq.Rpc.RpcClient
import Amq.Rpc.RequestRouting
import Amq.Rpc.ConnectedCommands
import Amq.Acknowledgements
import Amq.LockRelease
import Amq.RunsInProgress
import Amq.LockedServer
import Amq.ConnectedServers
import Amq.QueueServer
import Amq.QueueSetup
import Amq.SoleConsumer
import Amq.JsSet
import Amq.JsHeap
import Amq.ObjectUtil
import Amq.EventEmitter
import Amq.StringUtil
import Amq.Placeholders
import Amq.Substitution
import Amq.HarmlessValues
import Amq.PubSub.PubSub
import Amq.PubSub.ConsumerRegistry
import Amq.PubSub.QueueNames
import Amq.PubSub.TopicNames
import Amq.PubSub.PubSubNode
import Amq.PubSub.PubSubSystem
import Amq.PubSub.Subscribers
import Amq.Transition.Simulation
