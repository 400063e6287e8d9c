import ParrotServe.Framework.TransitionSystem
import ParrotServe.Framework.Paging
import ParrotServe.Model.RecyclePool
import ParrotServe.Model.BlockContext
import ParrotServe.Properties.BlockMemory
import ParrotServe.Properties.BlockOwnership
import ParrotServe.Model.BuiltinEngine
import ParrotServe.Properties.EngineTree
import ParrotServe.Properties.BlockTables
import ParrotServe.Properties.SlotMapping
import ParrotServe.Properties.KvView
import ParrotServe.Framework.Iteration
import ParrotServe.Model.RequestChain
import ParrotServe.Properties.CompletionChains
import ParrotServe.Model.ContextManager
import ParrotServe.Properties.PrefixOperations
import ParrotServe.Properties.ContextFreeing
import ParrotServe.Properties.ContextBinding
import ParrotServe.Properties.ContextRuns
import ParrotServe.Properties.ReferenceCounts
import ParrotServe.Properties.PrefixClosure
import ParrotServe.Model.GraphExecutor
import ParrotServe.Properties.ExecutorPaths
import ParrotServe.Properties.ExecutorInvariant
import ParrotServe.Properties.PrefixSharing
import ParrotServe.Properties.ContextCounts
import ParrotServe.Properties.StartedContexts
import ParrotServe.Properties.ClientWrites
import ParrotServe.Framework.Dict
import ParrotServe.Model.EngineManager
import ParrotServe.Properties.EngineRegistry
import ParrotServe.Model.GlobalScheduler
import ParrotServe.Properties.StaleEngines
import ParrotServe.Properties.Dispatching
import ParrotServe.Properties.TaskAccounting
import ParrotServe.Properties.Capacity
import ParrotServe.Properties.ModelConstraints
import ParrotServe.Properties.Tokenizations
import ParrotServe.Framework.Traversal
import ParrotServe.Model.GraphTraverse
import ParrotServe.Properties.Activation
import ParrotServe.Model.ConstantPrefixes
import ParrotServe.Properties.PrefixExpiry
import ParrotServe.Model.ServeCore
import ParrotServe.Properties.EngineFailures
import ParrotServe.Model.RequestParser
import ParrotServe.Model.SemanticRequests
import ParrotServe.Properties.LaterChains
import ParrotServe.Properties.RequestBodies
import ParrotServe.Properties.RequestMeaning
import ParrotServe.Model.SessionManager
import ParrotServe.Properties.SessionSweeps
import ParrotServe.Properties.SessionBookkeeping
import ParrotServe.Model.NativeExecutor
import ParrotServe.Properties.Namespaces
import ParrotServe.Properties.SingleAssignment
import ParrotServe.Properties.SchedulerAccounting
import ParrotServe.Properties.ContextSafety
import ParrotServe.Framework.Tokens
import ParrotServe.Model.FrontendFunctions
import ParrotServe.Properties.Templates
import ParrotServe.Properties.TemplateRoundTrips
import ParrotServe.Properties.FrontendPayloads
import ParrotServe.Properties.ObjectArguments
import ParrotServe.Model.SessionRequests
import ParrotServe.Properties.NodeOrder
import ParrotServe.Properties.FreshVariables
import ParrotServe.Properties.GraphOrder
import ParrotServe.Properties.GraphRuns
import ParrotServe.Properties.SessionRuns
import ParrotServe.Properties.TraversalEnds
import ParrotServe.Properties.PartialCreation
import ParrotServe.Properties.RejectedRequests
import ParrotServe.Properties.Batches
import ParrotServe.Properties.EmptyBatches
import ParrotServe.Properties.GenerationStops
import ParrotServe.Properties.TokenStreams
import ParrotServe.Model.ModelRuns
import ParrotServe.Properties.OutputRouting
import ParrotServe.Framework.Forest
import ParrotServe.Model.SharedPrompts
import ParrotServe.Properties.SharedPrompts
import ParrotServe.Properties.ReservedSlots
import ParrotServe.Properties.ReferencePath
import ParrotServe.Framework.Selection
import ParrotServe.Properties.EngineChoice
import ParrotServe.Framework.CommonPrefix
import ParrotServe.Model.PrefixMatcher
import ParrotServe.Properties.PrefixMatching
import ParrotServe.Framework.Runs
import ParrotServe.Model.TextContexts
import ParrotServe.Properties.ChatMessages
import ParrotServe.Properties.QueueOrder
import ParrotServe.Framework.LongestPaths
import ParrotServe.Properties.ChainDepths
import ParrotServe.Properties.ChainGroups
import ParrotServe.Properties.CanonicalBodies
import ParrotServe.Properties.SubContexts
import ParrotServe.Properties.RefusedJobs
import ParrotServe.Framework.Words
import ParrotServe.Framework.Repetitions
import ParrotServe.Model.PromptTransforms
import ParrotServe.Properties.FunctionTransforms
import ParrotServe.Properties.PromptFormatting
import ParrotServe.Properties.Conversations
import ParrotServe.Properties.PoolHistories
import ParrotServe.Properties.SharedLengths
import ParrotServe.Model.NativeCalls
import ParrotServe.Properties.CachedFunctions
import ParrotServe.Model.RemovedChains
import ParrotServe.Properties.ConstructedRequests
import ParrotServe.Properties.GraphIds
import ParrotServe.Properties.RemovedChains
import ParrotServe.Framework.Dataflow
import ParrotServe.Model.SessionExecution
import ParrotServe.Properties.NewVariables
import ParrotServe.Properties.LaunchedCoroutines
import ParrotServe.Properties.SessionNetwork
import ParrotServe.Properties.SessionDataflow
import ParrotServe.Properties.SessionSchedules
import ParrotServe.Framework.StridedMemory
import ParrotServe.Model.KvLayouts
import ParrotServe.Properties.CacheLayouts
import ParrotServe.Model.EngineStorage
import ParrotServe.Properties.LayerForwards
import ParrotServe.Properties.BlockRange
import ParrotServe.Properties.EngineStorage
import ParrotServe.Properties.AvailableBlocks
import ParrotServe.Properties.EngineProgress
