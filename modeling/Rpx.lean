import Rpx.Machinery.Run
import Rpx.Machinery.Stream
import Rpx.Machinery.Fifo
import Rpx.Machinery.Registry
import Rpx.Machinery.CondVar
import Rpx.Machinery.BucketMap
import Rpx.Machinery.Batches
import Rpx.Core.Bytes
import Rpx.Core.StreamBuffer
import Rpx.Core.BufferFifo
import Rpx.Core.ReadBuffer
import Rpx.Core.Channel
import Rpx.Core.TcpConnection
import Rpx.Core.Lifecycle
import Rpx.Core.Effects
import Rpx.Core.PendingOutput
import Rpx.Core.Quiescence
import Rpx.Core.ForceClose
import Rpx.Core.ByteStream
import Rpx.Core.Shutdown
import Rpx.Core.Poller
import Rpx.Core.TimerQueue
import Rpx.Core.TimerArming
import Rpx.Core.TimerBatch
import Rpx.Machinery.SwapMap
import Rpx.Http.Llhttp
import Rpx.Http.HttpParser
import Rpx.Http.HeaderLines
import Rpx.Http.Body
import Rpx.Http.Wire
import Rpx.Http.Reserialize
import Rpx.Core.Connector
import Rpx.Core.TcpClient
import Rpx.Core.Attempts
import Rpx.Core.Stopping
import Rpx.Core.TcpServer
import Rpx.Core.ThreadPool
import Rpx.Core.EventLoop
import Rpx.Core.TearDown
import Rpx.Http.HttpServer
import Rpx.Http.Splitting
import Rpx.Http.HttpContext
import Rpx.Http.Exchange
import Rpx.Http.Serving
import Rpx.Http.Ownership
import Rpx.Http.Leak
import Rpx.Http.Relay
import Rpx.Http.Truncation
import Rpx.Http.ResponseOrder
import Rpx.Http.Transfer
import Rpx.Http.HttpClient
import Rpx.Core.TimerSteps
import Rpx.Core.TimerHandles
import Rpx.Core.Tie
import Rpx.Http.HttpRouter
import Rpx.Http.ProxyHandler
import Rpx.Http.StaticHandler
import Rpx.Core.TaskOrder
import Rpx.Core.InputBuffer
import Rpx.Core.EventLoopThreadPool
import Rpx.Machinery.Deferral
import Rpx.Core.ServerRefs
import Rpx.Core.ServerLoops
import Rpx.Core.Acceptor
import Rpx.Machinery.Progress
import Rpx.Core.TimerRead
import Rpx.Core.Joining
import Rpx.Core.PoolStart
import Rpx.Core.LoopProgress
import Rpx.Core.Reconnect
import Rpx.Machinery.Reading
import Rpx.Http.Responses
import Rpx.Http.Forwarding
import Rpx.Machinery.Spacing
import Rpx.Core.TimerRuns
import Rpx.Machinery.Weaving
import Rpx.Http.Interleaving
import Rpx.Core.BufferInts
import Rpx.Core.BufferSize
import Rpx.Core.Lifetimes
import Rpx.Core.LoopChannels
import Rpx.Http.RouteOrder
