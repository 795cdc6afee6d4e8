import LibZio.Foundation.Slice
import LibZio.Foundation.Fifo
import LibZio.Foundation.Words
import LibZio.Foundation.Fallible
import LibZio.Foundation.Machine
import LibZio.Foundation.Countdown
import LibZio.Foundation.Lists
import LibZio.Foundation.Sweep
import LibZio.Foundation.SweepDrain
import LibZio.Qbuf.Basic
import LibZio.Qbuf.Spec
import LibZio.Qbuf.Queue
import LibZio.Zsocket.State
import LibZio.Zsocket.Api
import LibZio.Zsocket.Loop
import LibZio.Zsocket.System
import LibZio.Zsocket.Lifecycle
import LibZio.Zsocket.WellFormed
import LibZio.Zsocket.Closing
import LibZio.Zsocket.Frames
import LibZio.Zsocket.Refinement
import LibZio.Zsocket.Aborts
import LibZio.Zsocket.CloseVisits
import LibZio.Zsocket.Handlers
import LibZio.Zsocket.Steps
import LibZio.Zsocket.Runs
import LibZio.Zsocket.Counters
import LibZio.Zsocket.DeferredClose
import LibZio.Zsocket.Watching
import LibZio.Zsocket.PollSafety
import LibZio.Zsocket.ReceiveStream
import LibZio.Zsocket.SendStream
import LibZio.Zsocket.CloseModes
import LibZio.Zsocket.Cascade
import LibZio.Zsocket.ServerCascade
import LibZio.Zsocket.Selecting
import LibZio.Zsocket.Dispatch
import LibZio.Qbuf.Growth
import LibZio.Qbuf.Layout
import LibZio.Foundation.Ledger
import LibZio.SocketCli.Basic
import LibZio.SocketCli.Ownership
import LibZio.SocketCli.ReaderThread
import LibZio.Serial.Basic
import LibZio.Serial.Unix
import LibZio.Serial.Registry
import LibZio.Serial.Steps
import LibZio.Serial.Sharing
import LibZio.Serial.OpenCount
import LibZio.Serial.StaysOpen
import LibZio.Foundation.Locks
import LibZio.Serial.LockOrder
import LibZio.Serial.Win32
import LibZio.Serial.TwinCalls
import LibZio.Serial.Agreement
import LibZio.Zsocket.Opening
import LibZio.Zsocket.ReceiveSpace
import LibZio.Zsocket.LoopMode
import LibZio.Zsocket.ClosePass
import LibZio.Zsocket.PassDiscipline
import LibZio.Zsocket.TimeoutClose
import LibZio.Zsocket.Flags
import LibZio.Foundation.Iteration
import LibZio.SocketCli.Reading
import LibZio.SocketCli.Peer
import LibZio.SocketCli.ReadAll
import LibZio.SocketCli.Clean
import LibZio.Qbuf.Extremes
import LibZio.Foundation.Transfer
import LibZio.Serial.UnixReading
import LibZio.SocketCli.Lossless
import LibZio.SocketCli.Writing
import LibZio.Serial.PortSteps
import LibZio.Serial.CloseFailures
import LibZio.Serial.Rejected
import LibZio.Foundation.Owners
import LibZio.Serial.Descriptors
import LibZio.Zsocket.OfferedLength
import LibZio.Zsocket.FdRange
import LibZio.Zsocket.FdSets
