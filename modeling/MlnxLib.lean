import MlnxLib.Lib.Ring
import MlnxLib.Lib.RedBlack
import MlnxLib.Lib.TreeHeap
import MlnxLib.Lib.RingFamily
import MlnxLib.Lib.OrdMap
import MlnxLib.Lib.Paging
import MlnxLib.Lib.PartialMaps
import MlnxLib.Lib.Fifo
import MlnxLib.Lib.Simulation
import MlnxLib.Lib.PinMap
import MlnxLib.Lib.Ownership
import MlnxLib.Lib.SlotTable
import MlnxLib.Complib.Containers
import MlnxLib.CtrlLearn.Defs
import MlnxLib.CtrlLearn.Filters
import MlnxLib.CtrlLearn.UcDb
import MlnxLib.CtrlLearn.Index
import MlnxLib.CtrlLearn.Invariant
import MlnxLib.CtrlLearn.Conservation
import MlnxLib.CtrlLearn.AddFailure
import MlnxLib.CtrlLearn.Coherence
import MlnxLib.CtrlLearn.Get
import MlnxLib.CtrlLearn.Records
import MlnxLib.CtrlLearn.Learn
import MlnxLib.CtrlLearn.Flush
import MlnxLib.CtrlLearn.Batch
import MlnxLib.CtrlLearn.Cookie
import MlnxLib.Commu.Db
import MlnxLib.Commu.Servers
import MlnxLib.Commu.Reuse
import MlnxLib.Commu.Framing
import MlnxLib.CtrlLearn.LifeCycle
import MlnxLib.CtrlLearn.LinkCalls
import MlnxLib.CtrlLearn.Calls
import MlnxLib.Commu.ReturnCodes
import MlnxLib.Commu.StoppedServer
import MlnxLib.Complib.CommChnl
import MlnxLib.Complib.Qlist
import MlnxLib.Complib.QlistOps
import MlnxLib.Complib.QlistRuns
import MlnxLib.Complib.QcPool
import MlnxLib.Complib.QPool
import MlnxLib.Complib.Qmap
import MlnxLib.Complib.QmapBalance
import MlnxLib.Complib.QmapFamily
import MlnxLib.Complib.QmapSearch
import MlnxLib.Complib.QmapInsert
import MlnxLib.Complib.QmapRemove
import MlnxLib.Complib.QmapRuns
import MlnxLib.Complib.QmapMerge
import MlnxLib.Complib.QmapStore
import MlnxLib.Complib.Fmap
import MlnxLib.Complib.FmapAgree
import MlnxLib.Complib.FmapRuns
import MlnxLib.Complib.FmapFamily
import MlnxLib.Complib.ClMapTree
import MlnxLib.Complib.ClMapRuns
import MlnxLib.Complib.ClMap
import MlnxLib.Complib.MapMerge
import MlnxLib.Complib.MapDelta
import MlnxLib.Complib.ArrayInsert
import MlnxLib.Complib.ClListOps
import MlnxLib.Complib.Event
import MlnxLib.Complib.Timer
import MlnxLib.Complib.TimerExpiry
import MlnxLib.Complib.TimerService
import MlnxLib.Complib.TimerCalls
import MlnxLib.EventDisp.Connections
import MlnxLib.EventDisp.Delivery
import MlnxLib.EventDisp.Descriptors
import MlnxLib.EventDisp.Registrations
import MlnxLib.EventDisp.Registry
import MlnxLib.EventDisp.RepeatedEvents
import MlnxLib.EventDisp.FailedRegistration
import MlnxLib.EventDisp.Mailboxes
import MlnxLib.Lib.CircularQueue
import MlnxLib.Lib.Stages
import MlnxLib.SxRpc.Defs
import MlnxLib.SxRpc.CommandTable
import MlnxLib.SxRpc.Dispatch
import MlnxLib.SxRpc.EventSrcs
import MlnxLib.SxRpc.HeaderSafety
import MlnxLib.SxRpc.SelectSet
import MlnxLib.SxRpc.ExactlyOnce
import MlnxLib.SxRpc.RoundTrip
import MlnxLib.SxRpc.Conversations
import MlnxLib.CtrlLearn.HeadRoom
import MlnxLib.CtrlLearn.FilterKeys
import MlnxLib.CtrlLearn.GetNext
import MlnxLib.CtrlLearn.Approval
import MlnxLib.CtrlLearn.Accepted
import MlnxLib.CtrlLearn.SetCall
import MlnxLib.CtrlLearn.SingleCalls
import MlnxLib.CtrlLearn.BatchCookies
import MlnxLib.CtrlLearn.FlushExact
import MlnxLib.CtrlLearn.ArrayBounds
import MlnxLib.CtrlLearn.KeptBy
import MlnxLib.CtrlLearn.Control
import MlnxLib.Commu.SetUp
import MlnxLib.Commu.PeerMagic
import MlnxLib.Commu.MsgTypes
import MlnxLib.Commu.Lookup
import MlnxLib.Commu.Udp
import MlnxLib.Commu.Accounting
import MlnxLib.Commu.Network
import MlnxLib.Commu.SessionCalls
import MlnxLib.Commu.SessionLedger
import MlnxLib.Commu.Datagrams
