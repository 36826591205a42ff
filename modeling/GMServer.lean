import GMServer.Library.Transition
import GMServer.Utils.AssertUtils
import GMServer.LibActor.Address
import GMServer.LibActor.Mailbox
import GMServer.LibActor.SchedulerSemaphore
import GMServer.LibActor.MailboxSystem
import GMServer.LibActor.MailboxLock
import GMServer.LibActor.MailboxDelivery
import GMServer.LibActor.MailboxThrow
import GMServer.LibActor.MailboxActor
import GMServer.LibActor.Directory
import GMServer.LibActor.Framework
import GMServer.LibActor.Registration
import GMServer.BoostNet.NetPacket
import GMServer.BoostNet.WireEncoding
import GMServer.BoostNet.SendQueue
import GMServer.BoostNet.SendOneWrite
import GMServer.BoostNet.SendOrder
import GMServer.BoostNet.ReadCycle
import GMServer.LibActor.EndPoint
import GMServer.LibActor.Reconnect
import GMServer.LibActor.Shutdown
import GMServer.Library.SortedMap
import GMServer.Utils.TimeUtils
import GMServer.Utils.TimerSafety
import GMServer.Utils.TimerDue
import GMServer.Utils.TimerMissed
import GMServer.DataHandle.StringValue
import GMServer.DataHandle.KeyFieldMgr
import GMServer.DataHandle.RedisBuffer
import GMServer.DataHandle.RedisCommand
import GMServer.DataHandle.RedisSyncData
import GMServer.DataHandle.Coalescing
import GMServer.DataHandle.RedisAdapter
import GMServer.DataHandle.ReadBack
import GMServer.DataHandle.RedisSubMgr
import GMServer.DataHandle.Subscription
import GMServer.DataHandle.WriteBack
import GMServer.DataHandle.RedisScan
import GMServer.DataHandle.SyncDispatch
import GMServer.DataHandle.DataTransfer
import GMServer.DataHandle.SaveRepeated
import GMServer.DataHandle.Registry
import GMServer.LibActor.HandlerCollection
import GMServer.LibActor.Actor
import GMServer.DataHandle.StructRegistry
import GMServer.DataHandle.ListenLoop
import GMServer.DataHandle.TRepeated
import GMServer.DataHandle.RepeatedKeys
import GMServer.DataHandle.MySqlResult
import GMServer.DataHandle.LoadToRedis
import GMServer.DataHandle.LoadRepeated
import GMServer.DataHandle.SavePackage
import GMServer.DataHandle.SavedPackage
import GMServer.DataHandle.UpdateText
import GMServer.DataHandle.LoadPackage
import GMServer.LibActor.FrameworkSend
import GMServer.LibActor.Routing
import GMServer.LibActor.Multicast
import GMServer.LibActor.SendResult
import GMServer.LibActor.DirectoryBounds
import GMServer.LibActor.SchedulerShutdown
import GMServer.BoostNet.EmptyPop
import GMServer.BoostNet.LoginTimer
import GMServer.Utils.TimerOrder
import GMServer.Utils.TimerCancel
import GMServer.DataHandle.SubscriberThread
import GMServer.Library.Ranking
import GMServer.Utils.RankUtils
import GMServer.Utils.RTRank
import GMServer.DataHandle.FieldEvents
import GMServer.DataHandle.MembershipEvents
import GMServer.DataHandle.StructSync
import GMServer.Utils.TimerDelete
import GMServer.DataHandle.MessageGrammar
import GMServer.DataHandle.LoadFields
import GMServer.DataHandle.SaveLoad
import GMServer.DataHandle.BatchRuns
import GMServer.DataHandle.ArgumentLists
import GMServer.DataHandle.SentChanges
import GMServer.DataHandle.SqlLiteral
import GMServer.DataHandle.ElementScan
import GMServer.DataHandle.GroupSubscription
import GMServer.DataHandle.ValueText
import GMServer.DataHandle.NotifySwitch
import GMServer.Utils.Log
import GMServer.DataHandle.Tokenizers
import GMServer.Library.Incremental
import GMServer.Hiredis.Reader
import GMServer.Hiredis.Decoder
import GMServer.Hiredis.ReaderSteps
import GMServer.Hiredis.ReaderRuns
import GMServer.Hiredis.Resp
import GMServer.Hiredis.Command
import GMServer.Hiredis.Context
import GMServer.Hiredis.Answer
import GMServer.Hiredis.Session
import GMServer.Hiredis.Calls
import GMServer.Library.Simulation
import GMServer.Hiredis.SyncReader
import GMServer.Hiredis.SubscriberWire
import GMServer.DataHandle.Replication
import GMServer.DataHandle.PackageCycle
import GMServer.LibActor.MailboxProgress
import GMServer.BoostNet.SendProgress
import GMServer.LibActor.SchedulerWakeup
import GMServer.DataHandle.MySqlHandle
import GMServer.Library.LockOrder
import GMServer.LibActor.Mutexes
