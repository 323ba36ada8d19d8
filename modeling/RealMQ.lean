import RealMQ.Foundation.Runs
import RealMQ.ListRefinement
import RealMQ.BufferSegments
import RealMQ.StatsRotation
import RealMQ.ServerThread
import RealMQ.SplitAcks
import RealMQ.QosProtocol
import RealMQ.DiffSpecification
import RealMQ.HeartbeatHistory
import RealMQ.HistoryStore
import RealMQ.DetectorInterleavings
import RealMQ.AckOutcomes
import RealMQ.ZmqReceive
import RealMQ.ClientPayload
import RealMQ.MessageQueue
import RealMQ.MissedMessageIds
import RealMQ.ClientLoop
import RealMQ.IntegerSettings
import RealMQ.RecycledMemory
import RealMQ.ProtocolRounds
import RealMQ.ClientShutdown
import RealMQ.SendHeartbeat
import RealMQ.SettingsFile
import RealMQ.MergeCsv
import RealMQ.IdBatches
import RealMQ.ServerStop
import RealMQ.HeartbeatFeedback
import RealMQ.ClientMemory
import RealMQ.ServerMemory
import RealMQ.LeakDetector
import RealMQ.TrackedHeap
import RealMQ.DetectorMemory
import RealMQ.StartUp
import RealMQ.SharedAddress
