import RobotMiddleware.TransitionSystem
import RobotMiddleware.MailboxModel
import RobotMiddleware.MailboxSteps
import RobotMiddleware.MailboxTokens
import RobotMiddleware.MailboxOrder
import RobotMiddleware.MailboxBarrier
import RobotMiddleware.MailboxStats
import RobotMiddleware.Census
import RobotMiddleware.ThreadPoolModel
import RobotMiddleware.ThreadPoolSteps
import RobotMiddleware.ThreadPoolTasks
import RobotMiddleware.ThreadPoolCounters
import RobotMiddleware.ThreadPoolShutdown
import RobotMiddleware.TopicBusModel
import RobotMiddleware.TopicBusSteps
import RobotMiddleware.TopicRegistry
import RobotMiddleware.TopicTypes
import RobotMiddleware.CommonOrder
import RobotMiddleware.TopicOrder
import RobotMiddleware.TopicStop
import RobotMiddleware.RuntimeModel
import RobotMiddleware.RuntimeShutdown
import RobotMiddleware.BigEndian
import RobotMiddleware.FrameModel
import RobotMiddleware.FrameLayout
import RobotMiddleware.FrameSafety
import RobotMiddleware.FrameRoundTrip
import RobotMiddleware.TcpModel
import RobotMiddleware.TcpReceive
import RobotMiddleware.TcpSend
import RobotMiddleware.KeyedFilter
import RobotMiddleware.BridgeModel
import RobotMiddleware.BridgeFilter
import RobotMiddleware.BridgeReceive
import RobotMiddleware.BridgeEpochs
import RobotMiddleware.BridgeRestart
import RobotMiddleware.BridgeStopModel
import RobotMiddleware.BridgeStop
import RobotMiddleware.TopicCallbacks
import RobotMiddleware.BridgeNodeModel
import RobotMiddleware.BridgeNodeSteps
import RobotMiddleware.SharedCounter
import RobotMiddleware.BridgeExportFrames
import RobotMiddleware.BridgeExportOrder
import RobotMiddleware.BridgeLink
import RobotMiddleware.ConditionVariable
import RobotMiddleware.QueueModel
import RobotMiddleware.QueueSteps
import RobotMiddleware.QueueFifo
import RobotMiddleware.QueueWakeups
import RobotMiddleware.ThreadPoolWaitModel
import RobotMiddleware.ThreadPoolWaits
import RobotMiddleware.ThreadPoolDeadlock
import RobotMiddleware.ShiftRegister
import RobotMiddleware.FrameCorruption
import RobotMiddleware.BridgeClientModel
import RobotMiddleware.FrameClassification
import RobotMiddleware.CappedDoubling
import RobotMiddleware.ReconnectBackoff
import RobotMiddleware.ExportPipeline
import RobotMiddleware.ReceiveCounting
import RobotMiddleware.Observation
import RobotMiddleware.TopicMailboxes
import RobotMiddleware.PublishResults
import RobotMiddleware.PublishFates
import RobotMiddleware.SystemFamily
import RobotMiddleware.BridgedRuntime
import RobotMiddleware.NoEcho
import RobotMiddleware.FirstOccurrences
import RobotMiddleware.SequenceTracker
import RobotMiddleware.BinaryCodec
import RobotMiddleware.BinaryCodecRoundTrip
import RobotMiddleware.MessageCodec
import RobotMiddleware.RegisterPolynomial
import RobotMiddleware.CrcPolynomial
import RobotMiddleware.TcpBounds
import RobotMiddleware.TimingOverflow
import RobotMiddleware.ClientLoopModel
import RobotMiddleware.ClientAccounting
import RobotMiddleware.ScopedLock
import RobotMiddleware.BridgeTransportModel
import RobotMiddleware.BridgeTransport
import RobotMiddleware.PassedBetween
import RobotMiddleware.SessionManagerModel
import RobotMiddleware.SessionLifecycle
import RobotMiddleware.SessionAccounting
import RobotMiddleware.SessionProgress
import RobotMiddleware.SessionManagerLife
import RobotMiddleware.BridgeConfiguration
import RobotMiddleware.TcpLink
import RobotMiddleware.LossyNetwork
import RobotMiddleware.UdpModel
import RobotMiddleware.UdpDatagrams
import RobotMiddleware.ConnectionModel
import RobotMiddleware.ConnectionSafety
import RobotMiddleware.BridgeOverUdp
import RobotMiddleware.SocketModel
import RobotMiddleware.SocketOwnership
import RobotMiddleware.KeepAlive
import RobotMiddleware.HeartbeatLinkModel
import RobotMiddleware.HeartbeatLink
