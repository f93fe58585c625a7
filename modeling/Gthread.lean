import Gthread.Lib.Run
import Gthread.Lib.StableQueue
import Gthread.Lib.RingCounter
import Gthread.Lib.RoundUp
import Gthread.Lib.ObjectLifetime
import Gthread.Sched.Task
import Gthread.Sched.TimeOrderedQueue
import Gthread.Sched.Rq
import Gthread.Sched.RqLaws
import Gthread.Sched.Node
import Gthread.Sched.NodeLaws
import Gthread.Sched.Sched
import Gthread.Sched.Life
import Gthread.Sched.LifeFrame
import Gthread.Sched.LifeSteps
import Gthread.Sched.LifeYield
import Gthread.Sched.SchedLife
import Gthread.Sched.SchedOrder
import Gthread.Sched.SchedLaws
import Gthread.G
import Gthread.GLaws
import Gthread.Concur.Cpu
import Gthread.Concur.Waiter
import Gthread.Concur.WaiterSteps
import Gthread.Concur.WaiterLaws
import Gthread.Concur.RingBuffer
import Gthread.Concur.RingBufferSteps
import Gthread.Concur.RingBufferWakes
import Gthread.Concur.RingBufferOrder
import Gthread.Concur.ChannelWindow
import Gthread.Concur.ChannelWindowSteps
import Gthread.Concur.ChannelWindowPairs
import Gthread.Concur.ChannelWindowMeets
import Gthread.Concur.ChannelWindowReleases
import Gthread.Concur.ChannelWindowClosed
import Gthread.Concur.Gate
import Gthread.Concur.Closing
import Gthread.Concur.RingBufferFifo
import Gthread.Concur.ChannelLife
import Gthread.Concur.Lot
import Gthread.Concur.Parking
import Gthread.Concur.Mutex
import Gthread.Concur.MutexSteps
import Gthread.Concur.MutexLaws
import Gthread.Concur.MutexExclusion
import Gthread.Concur.MutexBoost
import Gthread.Concur.MutexRefines
import Gthread.Sched.SchedSteps
import Gthread.Sched.SchedNames
import Gthread.Sched.SchedStart
import Gthread.Sched.SchedTls
import Gthread.Platform.Tls
import Gthread.Platform.TlsLayout
import Gthread.Platform.TlsReset
import Gthread.Platform.TlsPrefix
import Gthread.Platform.Memory
import Gthread.Sched.FreeList
import Gthread.Sched.Current
import Gthread.Lib.ByteMemory
import Gthread.Arch.SwitchTo
import Gthread.Arch.SwitchToLaws
import Gthread.Sched.SchedQueue
import Gthread.Sched.SchedFair
import Gthread.Sched.Accounting
import Gthread.Sched.Kernel
import Gthread.Sched.KernelLocks
import Gthread.Sched.SchedSpared
import Gthread.Sched.KernelParks
import Gthread.Sched.KernelFlags
import Gthread.Sched.KernelRefines
import Gthread.Concur.Client
import Gthread.Concur.ClientThread
import Gthread.Concur.MutexThread
import Gthread.Concur.ClientChannel
import Gthread.Concur.RingBufferThread
import Gthread.Sched.SchedPlaces
import Gthread.Sched.KernelPlaces
import Gthread.Sched.SchedBuilds
import Gthread.Sched.SchedSafe
import Gthread.Sched.SchedOutcome
import Gthread.Sched.SchedJoin
import Gthread.Sched.JoinProtocol
import Gthread.Sched.KernelJoins
import Gthread.Sched.KernelSafe
import Gthread.Sched.SchedForeign
import Gthread.Sched.PreemptFlag
import Gthread.Sched.LifeWake
import Gthread.Sched.SchedWake
