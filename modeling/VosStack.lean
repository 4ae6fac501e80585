import VosStack.Transport.Conservation
import VosStack.Transport.WakeUp
import VosStack.Transport.Delivery
import VosStack.Transport.SendFlags
import VosStack.Connect.Attempt
import VosStack.Reactor.LostWakeUp
import VosStack.Stream.Connections
import VosStack.Epoll.Refinement
import VosStack.Atomic.Exclusive
import VosStack.Atomic.Specification
import VosStack.Atomic.TestAndSet
import VosStack.Veth.Stack
import VosStack.Veth.Input
import VosStack.Veth.Output
import VosStack.Veth.Interfaces
import VosStack.Veth.Settings
import VosStack.Veth.Registry
import VosStack.Reactor.SynchronousLife
import VosStack.Udp.Sessions
import VosStack.Reactor.Interest
import VosStack.Reactor.Endings
import VosStack.Reactor.Dispatch
import VosStack.Reactor.PipeBound
import VosStack.Reactor.NotifyPipe
import VosStack.Reactor.EventQueue
import VosStack.Reactor.EventFates
import VosStack.Reactor.Refinement
import VosStack.Reactor.Draining
import VosStack.Udp.Connected
import VosStack.Reactor.Repository
import VosStack.Reactor.Listen
import VosStack.Udp.Refinement
import VosStack.Reactor.OpenClose
import VosStack.Connect.Refinement
import VosStack.Transport.Descriptor
import VosStack.Stream.Sending
import VosStack.Stream.Limits
import VosStack.Stream.Attached
import VosStack.Ports.Threads
import VosStack.Syscall.Forms
import VosStack.Syscall.Capacity
import VosStack.Syscall.Vectors
import VosStack.Syscall.SctpFlags
import VosStack.Epoll.Wait
import VosStack.Kern.Mapping
import VosStack.Epoll.Progress
import VosStack.Epoll.Linear
import VosStack.Timeout.Scan
import VosStack.Timeout.Linear
import VosStack.Inet.RoundTrip
import VosStack.Kern.LowestFree
import VosStack.Kern.TaskOrder
