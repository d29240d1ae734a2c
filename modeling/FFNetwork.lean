import FFNetwork.Lib.StepSystem
import FFNetwork.Lib.PriorityQueue
import FFNetwork.Lib.BitSmear
import FFNetwork.Lib.Block
import FFNetwork.Lib.Rounds
import FFNetwork.Lib.OrderedMap
import FFNetwork.Base.Time
import FFNetwork.Base.Timespec
import FFNetwork.Base.MessageLoop.DelayedTask
import FFNetwork.Base.MessageLoop.TaskQueues
import FFNetwork.Base.MessageLoop.QueueHistory
import FFNetwork.Base.MessageLoop.StoreView
import FFNetwork.Base.MessageLoop.WakeUp
import FFNetwork.Base.MessageLoop.EmissionOrder
import FFNetwork.Base.MessageLoop.LoopImpl
import FFNetwork.Base.MessageLoop.LoopImplLinux
import FFNetwork.Base.MessageLoop.Message
import FFNetwork.Base.MessageLoop.MessageStream
import FFNetwork.Base.MessageLoop.MessageGrowth
import FFNetwork.Net.CurlClient
import FFNetwork.Net.Completions
import FFNetwork.Net.HandleOwners
import FFNetwork.Base.MessageLoop.TieBreaking
import FFNetwork.Base.Thread.SharedMutex
import FFNetwork.Base.Thread.WaitableEvent
import FFNetwork.Base.Thread.WaitWithTimeout
import FFNetwork.Base.MessageLoop.FinishedLoop
import FFNetwork.Base.MessageLoop.Shutdown
import FFNetwork.Base.MessageLoop.Termination
import FFNetwork.Net.GlobalState
import FFNetwork.Net.PerformRequestSync
import FFNetwork.Base.Thread.Thread
import FFNetwork.Net.OwnTask
import FFNetwork.Net.RequestImpl
import FFNetwork.Base.MessageLoop.QueueIsolation
import FFNetwork.Net.CallbackEffects
import FFNetwork.Net.HeaderOrder
import FFNetwork.Net.ResponseHeaders
import FFNetwork.Net.VaryExclusion
import FFNetwork.Base.MessageLoop.TimerRearm
import FFNetwork.Base.MessageLoop.EpollTimeout
import FFNetwork.Base.MessageLoop.DelayedPost
import FFNetwork.Base.MessageLoop.Observers
import FFNetwork.Lib.SerialNumber
import FFNetwork.Utils.TimeUtils
import FFNetwork.Net.Metrics
import FFNetwork.Base.MessageLoop.Reserve
import FFNetwork.Base.Thread.LifeCycle
import FFNetwork.Lib.Slots
import FFNetwork.Base.UniqueObject
import FFNetwork.Base.MessageLoop.TimerWake
import FFNetwork.Lib.BlockHash
import FFNetwork.Lib.Fips180
import FFNetwork.Utils.Sha256Blocks
import FFNetwork.Lib.LockedSections
import FFNetwork.Base.MessageLoop.StoreSections
import FFNetwork.Lib.Simulation
import FFNetwork.Base.MessageLoop.FirstInFirstOut
import FFNetwork.Net.LoopClient
import FFNetwork.Lib.Potential
import FFNetwork.Base.Thread.StartHandshake
import FFNetwork.Lib.SharedOwnership
import FFNetwork.Base.MessageLoop.LoopOwners
import FFNetwork.Net.ClientLifetime
import FFNetwork.Net.ClientTeardown
import FFNetwork.Lib.BlockMemory
import FFNetwork.Net.RequestMemory
import FFNetwork.Net.RequestStore
import FFNetwork.Net.HeaderRoundTrip
