import SansIo.Backend.AwakeFlag
import SansIo.Backend.Inbox
import SansIo.Backend.Interchange
import SansIo.Backend.Resume
import SansIo.Backend.Scan
import SansIo.Backend.Tokens
import SansIo.Buffer.Laws
import SansIo.Buffer.Layers
import SansIo.Buffer.Ranges
import SansIo.Buffer.Remain
import SansIo.Bus.Deliver
import SansIo.Bus.Room
import SansIo.Bus.WakeUp
import SansIo.Collections.BitHistory
import SansIo.Collections.Fifo
import SansIo.Collections.Indexed
import SansIo.Examples.EchoServer
import SansIo.Lib.Component
import SansIo.Lib.Loop
import SansIo.Lib.Refine
import SansIo.Lib.Registry
import SansIo.Lib.Split
import SansIo.System.Cached
import SansIo.System.Conserved
import SansIo.System.EndToEnd
import SansIo.System.PubSub
import SansIo.System.Requests
import SansIo.System.Shutdown
import SansIo.Task.Agree
import SansIo.Task.InOrder
import SansIo.Task.NewFlags
import SansIo.Task.SetTask
import SansIo.Task.SlotMap
import SansIo.Worker.Delivery
import SansIo.Worker.Drain
import SansIo.Worker.Network
import SansIo.Worker.Ticks
import SansIo.Worker.Woken
