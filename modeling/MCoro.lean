import MCoro.Library.LinkedTree
import MCoro.Library.StableOrder
import MCoro.Utils.RbTree
import MCoro.Utils.RbTreeLinks
import MCoro.Utils.RbTreeRepair
import MCoro.Utils.RbTreeOperations
import MCoro.Utils.RbTreeRuns
import MCoro.Generic.GenericIO
import MCoro.Generic.TimerRuns
import MCoro.Iostream.BytesBuffer
import MCoro.Utils.Expected
import MCoro.Iostream.StreamBase
import MCoro.Iostream.StreamReads
import MCoro.Iostream.StreamReadRuns
import MCoro.Iostream.StreamWrites
import MCoro.Generic.Cancel
import MCoro.Generic.CancelRuns
import MCoro.Awaiter.WhenAll
import MCoro.Generic.WhenAny
import MCoro.Generic.WhenAnyRuns
import MCoro.Generic.TimedOperations
import MCoro.Generic.TimedOperationRuns
import MCoro.Awaiter.TaskLocalRuns
import MCoro.Library.CircularSegment
import MCoro.Library.Lockstep
import MCoro.Utils.RingQueue
import MCoro.Utils.RingQueueRuns
import MCoro.Awaiter.WhenAllRuns
import MCoro.Generic.Mutex
import MCoro.Library.Population
import MCoro.Generic.MutexRuns
import MCoro.Generic.ConditionVariable
import MCoro.Generic.ConditionVariableRuns
import MCoro.Generic.SemaphoreWaiters
import MCoro.Generic.Semaphore
import MCoro.Generic.SemaphoreRuns
import MCoro.Generic.Queue
import MCoro.Generic.QueueWaiters
import MCoro.Platform.PlatformIO
import MCoro.Platform.UringLifetimes
import MCoro.Platform.PlatformIORuns
import MCoro.Library.ColorRules
import MCoro.Utils.RbTreeColors
import MCoro.Utils.RbTreeBalance
import MCoro.Generic.ThreadPool
import MCoro.Generic.ThreadPoolRuns
import MCoro.Library.LinkedRing
import MCoro.Utils.IntrusiveList
import MCoro.Utils.IntrusiveListRuns
import MCoro.Utils.ConcurrentQueue
import MCoro.Utils.ConcurrentQueueRuns
import MCoro.Iostream.StreamDelimiters
import MCoro.Library.Delimiters
import MCoro.Iostream.StreamSpans
import MCoro.Iostream.StreamDrops
import MCoro.Iostream.StreamHistories
import MCoro.Iostream.StreamCalls
import MCoro.Utils.ConcurrentQueueStamps
import MCoro.Generic.CallOnce
import MCoro.Generic.CallOnceRuns
import MCoro.Awaiter.WhenAllExceptions
import MCoro.Generic.WhenAnyVector
import MCoro.Platform.SubmissionQueue
import MCoro.Platform.LinkedEntries
import MCoro.Library.Splitting
import MCoro.Utils.StringUtils
import MCoro.Platform.AddressResolver
import MCoro.Platform.AddressResolverRuns
import MCoro.Platform.Process
import MCoro.Platform.ProcessEnvironment
import MCoro.Platform.Registrations
import MCoro.Platform.Fallbacks
import MCoro.Platform.SocketConnect
import MCoro.Library.Leases
import MCoro.Platform.FileHandles
import MCoro.Library.LittleEndian
import MCoro.Platform.FileWatch
import MCoro.Platform.FileWatchRuns
import MCoro.Utils.SplitRest
import MCoro.Platform.FileTransfers
import MCoro.Utils.NumberText
import MCoro.Iostream.FileStream
import MCoro.Generic.Sleep
import MCoro.Platform.FutexNotify
import MCoro.Platform.Pipe
import MCoro.Awaiter.AllocatorScopes
import MCoro.Awaiter.AllocatorScopeRuns
import MCoro.Generic.MutexLocked
import MCoro.Utils.ExpectedLifetime
import MCoro.Awaiter.Tasks
import MCoro.Awaiter.TaskShapes
import MCoro.Awaiter.TaskRuns
import MCoro.Awaiter.TaskCombinators
import MCoro.Generic.ThreadPoolCallRuns
import MCoro.Generic.ThreadPoolCallResults
import MCoro.Generic.ThreadPoolCallProgress
import MCoro.Iostream.StreamLines
import MCoro.Library.CriticalSections
import MCoro.Utils.LockedQueue
import MCoro.Generic.SemaphoreStretches
