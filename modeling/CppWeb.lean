import CppWeb.Buffer.Headroom
import CppWeb.Buffer.Lines
import CppWeb.Buffer.Memory
import CppWeb.Client.Descriptor
import CppWeb.Client.Destroyed
import CppWeb.Client.Establish
import CppWeb.Foundation.BatchQueue
import CppWeb.Foundation.Transition
import CppWeb.Loop.EventLoopThread
import CppWeb.Loop.Latency
import CppWeb.Loop.Wakeup
import CppWeb.Poll.Poller
import CppWeb.Poll.Registration
import CppWeb.Pool.Rest
import CppWeb.Server.ShutDown
import CppWeb.Server.StartUp
import CppWeb.Server.Streams
import CppWeb.Server.Teardown
import CppWeb.Tcp.Dispatch
import CppWeb.Tcp.Echo
import CppWeb.Tcp.FinOrder
import CppWeb.Tcp.FlowControl
import CppWeb.Tcp.Hole
import CppWeb.Tcp.Inert
import CppWeb.Tcp.Lifetime
import CppWeb.Tcp.Shutdown
import CppWeb.Tcp.WriteInterest
import CppWeb.Timers.Arithmetic
import CppWeb.Timers.Arming
import CppWeb.Timers.Lifetime
import CppWeb.Timers.Schedule
