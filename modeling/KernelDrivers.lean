import KernelDrivers.Errno
import KernelDrivers.Pointer
import KernelDrivers.Lib.Bytes
import KernelDrivers.Lib.CInt
import KernelDrivers.Lib.Conserve
import KernelDrivers.Lib.Decimal
import KernelDrivers.Lib.Holdings
import KernelDrivers.Lib.Ledger
import KernelDrivers.Lib.Packed
import KernelDrivers.Lib.Pool
import KernelDrivers.Lib.Register
import KernelDrivers.Lib.Ring
import KernelDrivers.Lib.Rounds
import KernelDrivers.Lib.RwLock
import KernelDrivers.Lib.Store
import KernelDrivers.Lib.System
import KernelDrivers.Lib.LoadUnload
import KernelDrivers.WaitQueue.Calls
import KernelDrivers.WaitQueue.Fifo
import KernelDrivers.WaitQueue.Processes
import KernelDrivers.WaitQueue.OneEach
import KernelDrivers.WaitQueue.Guard
import KernelDrivers.WaitQueue.WakeUp
import KernelDrivers.WaitQueue.Failed
import KernelDrivers.BlockDriver.Device
import KernelDrivers.BlockDriver.Request
import KernelDrivers.BlockDriver.Segments
import KernelDrivers.BlockDriver.MediaChange
import KernelDrivers.BlockDriver.Store
import KernelDrivers.BlockDriver.Setup
import KernelDrivers.BlockDriver.Bounds
import KernelDrivers.BlockDriver.Geometry
import KernelDrivers.USB.BulkRead
import KernelDrivers.USB.Session
import KernelDrivers.USB.Probe
import KernelDrivers.USB.BulkWrite
import KernelDrivers.USB.CharMajor
import KernelDrivers.USB.Skel.Lifetime
import KernelDrivers.USB.Skel.Reset
import KernelDrivers.USB.Skel.Unlink
import KernelDrivers.USB.Skel.ReadStream
import KernelDrivers.USB.Skel.ReadBuffer
import KernelDrivers.USB.Skel.ReadFault
import KernelDrivers.USB.Skel.Throttle
import KernelDrivers.Completion
import KernelDrivers.SeqLock
import KernelDrivers.Semaphore
import KernelDrivers.IRQ
import KernelDrivers.TwoThreads
import KernelDrivers.LockedCounter
import KernelDrivers.AtomicVariable
import KernelDrivers.Signal
import KernelDrivers.Kthread
import KernelDrivers.UartDriver
import KernelDrivers.UartDriver.Transmit
import KernelDrivers.UartDriver.Line
import KernelDrivers.Sysfs
import KernelDrivers.Procfs
import KernelDrivers.HelloProc
import KernelDrivers.MiscDriver
import KernelDrivers.ReadonlyCharacter
import KernelDrivers.ReadonlyCharacter.Fault
import KernelDrivers.SocketTCP
import KernelDrivers.SocketInput
import KernelDrivers.Framebuffer
import KernelDrivers.DeferredWork
import KernelDrivers.SocketTCP.Turns
import KernelDrivers.USB.Skel.Progress
import KernelDrivers.USB.Mouse
