import SoiExercises.Lib.Run
import SoiExercises.Lib.Ring
import SoiExercises.Lib.Segment
import SoiExercises.Lib.Ending
import SoiExercises.Lib.Rendezvous
import SoiExercises.Lib.Except
import SoiExercises.Monitor.Machine
import SoiExercises.Monitor.Outline
import SoiExercises.Monitor.IntegerBuffer
import SoiExercises.Monitor.Fifo
import SoiExercises.Sched.Proc
import SoiExercises.Sched.System
import SoiExercises.Sched.Senders
import SoiExercises.Sched.Lines
import SoiExercises.Sched.Exchange
import SoiExercises.Sched.Sound
import SoiExercises.Sched.Receive
import SoiExercises.Sched.Quantum
import SoiExercises.Lib.RoundRobin
import SoiExercises.Sched.Clock
import SoiExercises.Sched.RoundRobin
import SoiExercises.Lib.Spans
import SoiExercises.Alloc.Memory
import SoiExercises.Alloc.HoleList
import SoiExercises.Alloc.Canonical
import SoiExercises.Alloc.WorstFit
import SoiExercises.Lib.Record
import SoiExercises.Vfs.Records
import SoiExercises.Vfs.System
import SoiExercises.Vfs.Volume
import SoiExercises.Lib.Reach
import SoiExercises.Vfs.Commands
import SoiExercises.Vfs.Runs
import SoiExercises.Vfs.Capacity
import SoiExercises.Vfs.Files
import SoiExercises.Vfs.Directory
import SoiExercises.Vfs.Chains
import SoiExercises.Vfs.Leaks
import SoiExercises.Vfs.Addressing
import SoiExercises.Vfs.RoundTrip
import SoiExercises.Vfs.Removal
import SoiExercises.Vfs.Format
import SoiExercises.Lib.Tally
import SoiExercises.Semaphores.IntegerBuffer
import SoiExercises.Semaphores.Queue
import SoiExercises.Semaphores.Fifo
import SoiExercises.Semaphores.Main
import SoiExercises.Monitor.Liveness
import SoiExercises.Monitor.Handover
import SoiExercises.Alloc.Largest
import SoiExercises.Alloc.HoleMap
import SoiExercises.Alloc.Slots
import SoiExercises.Descendants.Main
import SoiExercises.Lib.Search
import SoiExercises.Descendants.Exact
import SoiExercises.Sched.Consistent
import SoiExercises.Sched.Priority
import SoiExercises.Sched.Events
import SoiExercises.Sched.Billing
import SoiExercises.Sched.Signals
import SoiExercises.Sched.Calls
import SoiExercises.Sched.ClockTask
import SoiExercises.Sched.Calm
import SoiExercises.Sched.Safety
import SoiExercises.Sched.Runs
import SoiExercises.Sched.Requests
import SoiExercises.Sched.Lifecycle
import SoiExercises.Sched.HeldUp
