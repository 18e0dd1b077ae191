import Cppnetool.BufferShrink
import Cppnetool.BufferBound
import Cppnetool.PollerDispatch
import Cppnetool.PollerInterest
import Cppnetool.TimerQueueFiring
import Cppnetool.EventLoopQueue
import Cppnetool.EventLoopThread
import Cppnetool.EventLoopWakeup
import Cppnetool.TcpConnectionStream
import Cppnetool.TcpServerRuns
import Cppnetool.TcpServerTable
import Cppnetool.TimerQueueAlarm
import Cppnetool.ConnectorSockets
import Cppnetool.ConnectorBackoff
import Cppnetool.TcpClientAttempts
import Cppnetool.TcpClientStop
import Cppnetool.TcpConnectionInterest
import Cppnetool.ChannelLifetime
import Cppnetool.TcpThreadsOwners
import Cppnetool.TcpThreadsConfined
import Cppnetool.TcpThreadsDispatch
import Cppnetool.ProxyNotices
import Cppnetool.ProxyLinks
import Cppnetool.ProxySweep
import Cppnetool.ProxyExpiry
import Cppnetool.LoggingRecord
import Cppnetool.LoggingThreads
import Cppnetool.ProxyResponses
import Cppnetool.ProxyClosed
import Cppnetool.TcpPipeStream
import Cppnetool.Mutex
import Cppnetool.EventLoopAtomic
import Cppnetool.EventLoopThreadReturns
import Cppnetool.EventLoopPass
import Cppnetool.TimerQueueThreads
import Cppnetool.LoggingOrder
import Cppnetool.TcpThreadsBalance
import Cppnetool.Thread
import Cppnetool.TcpServerSocketsRuns
