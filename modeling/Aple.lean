import Aple.Lib.Reach
import Aple.Lib.Loop
import Aple.Lib.RingBuffer
import Aple.Lib.Chain
import Aple.Message.Data
import Aple.Message.Post
import Aple.Message.Notify
import Aple.Message.Sync
import Aple.Message.Peek
import Aple.Message.System
import Aple.Message.PeekEffect
import Aple.Message.Frame
import Aple.Message.NotifyDeque
import Aple.Message.Flags
import Aple.Message.RingFifo
import Aple.Message.SyncList
import Aple.Message.DispatchOnce
import Aple.Message.WakeUp
import Aple.Lib.Total
import Aple.ThreadPool.ExactlyOnce
import Aple.ThreadPool.Finishes
import Aple.Lib.Channel
import Aple.ClientServer.Framing
import Aple.Pthread.Table
import Aple.Pthread.Bookkeeping
import Aple.Lib.Mutex
import Aple.Message.CrossSend
import Aple.Message.CrossDeadlock
import Aple.ClientServer.GlobalRes
import Aple.ClientServer.ResList
import Aple.ClientServer.Cursors
import Aple.ClientServer.SharedSems
import Aple.Pthread.Semaphore
import Aple.Pthread.ThreadData
import Aple.Lib.LockProg
import Aple.Pthread.Calls
import Aple.Pthread.JoinCalls
import Aple.Pthread.LockDiscipline
import Aple.Pthread.JoinOnce
import Aple.Lib.Threads
import Aple.Pthread.Once
import Aple.Message.HostTree
import Aple.Message.QuitProtocol
import Aple.Message.PaintRequests
import Aple.ClientServer.RequestLengths
import Aple.Message.Coalescing
import Aple.Pthread.KeyAllocator
import Aple.Pthread.ReapLoop
import Aple.Pthread.SlotSearch
import Aple.Lib.Claims
import Aple.Purc.Endpoints
import Aple.Lib.Rect
import Aple.Video.CommLcd
import Aple.ClientServer.Reply
import Aple.ClientServer.ReplyDemux
import Aple.ClientServer.SysHandlers
import Aple.ClientServer.OwnBytes
import Aple.Lib.RoundRobin
import Aple.Message.FilterSound
import Aple.Message.FilterFirst
import Aple.Message.PeekPosted
import Aple.Message.PeekKeeps
import Aple.Message.TimerService
import Aple.Message.MoveOrder
import Aple.Lib.DoWhile
import Aple.Pthread.IdLookup
import Aple.Pthread.KeyDestructors
import Aple.Pthread.CleanupHandlers
import Aple.Pthread.StackLayout
import Aple.Message.Broadcast
import Aple.Message.BroadcastCount
import Aple.Message.PendingTests
import Aple.Message.SyncReturn
import Aple.ClientServer.HwSurfaces
import Aple.ClientServer.IdleHandler
import Aple.ClientServer.RequestLock
import Aple.ClientServer.RequestResources
import Aple.Message.IdleTicks
import Aple.ClientServer.ClientLayers
import Aple.Lib.Scan
import Aple.Message.PaintOrder
import Aple.Message.Overtaking
import Aple.Process.CronConfig
import Aple.Process.RecordLock
import Aple.Process.System
import Aple.Purc.Reinit
import Aple.ClientServer.Session
import Aple.ClientServer.SessionSafe
import Aple.ClientServer.SessionCall
import Aple.Lib.Decimal
import Aple.Lib.Ledger
import Aple.ClientServer.HandshakeSafe
import Aple.ClientServer.HandshakeAccepts
import Aple.Message.ThrownAway
import Aple.Pthread.MutexLocks
import Aple.Pthread.Interleaving
import Aple.Process.DrawSemaphore
