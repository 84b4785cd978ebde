import Unet4Cooja.Lib.Runs
import Unet4Cooja.Link.Table
import Unet4Cooja.Link.Spec
import Unet4Cooja.Link.ParentState
import Unet4Cooja.Link.Depth
import Unet4Cooja.Lib.Feasible
import Unet4Cooja.Link.Moves
import Unet4Cooja.Link.Network
import Unet4Cooja.Core.Forward
import Unet4Cooja.Core.System
import Unet4Cooja.Core.Ownership
import Unet4Cooja.Core.Steps
import Unet4Cooja.Core.DownDelivery
import Unet4Cooja.Core.UpOwnership
import Unet4Cooja.Core.UpDelivery
import Unet4Cooja.Core.UpRouting
import Unet4Cooja.Link.LastId
import Unet4Cooja.Core.Records
import Unet4Cooja.Core.AtMostOnce
import Unet4Cooja.Link.RoundTrip
import Unet4Cooja.Core.PayloadSize
import Unet4Cooja.Core.ReversePath
import Unet4Cooja.Core.FrameLeak
import Unet4Cooja.Core.ShortFrames
import Unet4Cooja.Brtos.Timer
import Unet4Cooja.Brtos.TimerLists
import Unet4Cooja.Brtos.TimerInv
import Unet4Cooja.Brtos.TimerFrame
import Unet4Cooja.Brtos.TimerDeadline
import Unet4Cooja.Brtos.Mutex
import Unet4Cooja.Brtos.MutexInv
import Unet4Cooja.Brtos.TimerSleep
import Unet4Cooja.Brtos.MutexRelease
import Unet4Cooja.Radio.Cc2520
import Unet4Cooja.Radio.SendOk
import Unet4Cooja.Brtos.Event
import Unet4Cooja.Brtos.MutexExclusion
import Unet4Cooja.Brtos.Semaphore
import Unet4Cooja.Brtos.Queue
import Unet4Cooja.Brtos.DelayList
import Unet4Cooja.Brtos.Install
import Unet4Cooja.Brtos.MutexTable
import Unet4Cooja.Hal.Uart
import Unet4Cooja.Hal.Benchmark
import Unet4Cooja.Coap.Transactions
import Unet4Cooja.Coap.Retransmission
import Unet4Cooja.Brtos.Kernel
import Unet4Cooja.Brtos.TaskStep
import Unet4Cooja.Brtos.KernelInv
import Unet4Cooja.Brtos.KernelStep
import Unet4Cooja.Brtos.Preemption
import Unet4Cooja.Brtos.Blocking
import Unet4Cooja.Link.ParentChoice
import Unet4Cooja.Link.Slots
import Unet4Cooja.Link.Eviction
import Unet4Cooja.Lib.FifoMap
import Unet4Cooja.Lib.Positional
import Unet4Cooja.Stdio.Hex
import Unet4Cooja.Stdio.Decimal
import Unet4Cooja.Brtos.OSInfo
import Unet4Cooja.Lib.Gregorian
import Unet4Cooja.RouteMap
import Unet4Cooja.Core.NextHop
import Unet4Cooja.Core.SendSize
import Unet4Cooja.Coap.Receive
import Unet4Cooja.Radio.Retries
import Unet4Cooja.Core.TrickleTimer
import Unet4Cooja.Fcs
import Unet4Cooja.Core.Header
import Unet4Cooja.Tools.Decoders
import Unet4Cooja.Core.AckBuffer
import Unet4Cooja.Radio.RxFifo
import Unet4Cooja.Core.RetryLoops
import Unet4Cooja.Core.ParentReads
import Unet4Cooja.Brtos.Calendar
import Unet4Cooja.Brtos.Scheduler
import Unet4Cooja.Hal.BenchmarkTasks
import Unet4Cooja.Hal.TickTimer
import Unet4Cooja.Lib.Returns
import Unet4Cooja.Brtos.BinarySemaphore
import Unet4Cooja.Lib.While
import Unet4Cooja.Core.TrickleSeed
import Unet4Cooja.Brtos.TimerHeap
import Unet4Cooja.Brtos.RingQueue
import Unet4Cooja.Core.SocketList
import Unet4Cooja.Lib.Memory
import Unet4Cooja.Coap.RoundTrip
import Unet4Cooja.Coap.Block1
import Unet4Cooja.Contiki.Memb
import Unet4Cooja.Coap.Observe
import Unet4Cooja.Coap.WellKnownCore
import Unet4Cooja.Coap.Discovery
import Unet4Cooja.Coap.TransactionPool
import Unet4Cooja.Core.Pcg
import Unet4Cooja.Random
