import BumbelBee.Lib.Bytes
import BumbelBee.Lib.Medium
import BumbelBee.Lib.Buffer
import BumbelBee.Lib.Arena
import BumbelBee.Lib.Cursor
import BumbelBee.Lib.Process
import BumbelBee.Lib.Tally
import BumbelBee.Lib.Preempt
import BumbelBee.Lib.Run
import BumbelBee.Lib.Latest
import BumbelBee.Lib.Lowest
import BumbelBee.Lib.Digest
import BumbelBee.Lib.Rotation
import BumbelBee.Lib.Ring
import BumbelBee.Lib.Batch
import BumbelBee.Lib.Pages
import BumbelBee.Lib.Sparse
import BumbelBee.Lib.Decimal
import BumbelBee.Lib.Chunks
import BumbelBee.Lib.Reads
import BumbelBee.Lib.Counted
import BumbelBee.Lib.Tokens
import BumbelBee.Lib.X86
import BumbelBee.Lib.Gates
import BumbelBee.Lib.AtaDrive
import BumbelBee.Kernel.Ata
import BumbelBee.Kernel.Event
import BumbelBee.Kernel.FsFormat
import BumbelBee.Kernel.ExecImage
import BumbelBee.Kernel.Fs
import BumbelBee.Kernel.Trace
import BumbelBee.Kernel.RecordSteps
import BumbelBee.Kernel.Vfs
import BumbelBee.Kernel.BuiltinExec
import BumbelBee.Kernel.Sched
import BumbelBee.Kernel.Workload
import BumbelBee.Kernel.Devices
import BumbelBee.Kernel.Power
import BumbelBee.Kernel.Netfs
import BumbelBee.Kernel.Demo
import BumbelBee.Kernel.Isr
import BumbelBee.Kernel.FlushSteps
import BumbelBee.Kernel.Board
import BumbelBee.Kernel.Aspace
import BumbelBee.Kernel.MemoryMap
import BumbelBee.Kernel.Elf
import BumbelBee.Kernel.ElfReads
import BumbelBee.Kernel.Processes
import BumbelBee.Kernel.Tasks
import BumbelBee.Kernel.Nodes
import BumbelBee.Kernel.Mouse
import BumbelBee.Kernel.Fmt
import BumbelBee.Kernel.Console
import BumbelBee.Kernel.Shell
import BumbelBee.Kernel.Switch
import BumbelBee.Kernel.Entry
import BumbelBee.Kernel.AtaPorts
import BumbelBee.Kernel.Boot
import BumbelBee.Proof.FsSpec
import BumbelBee.Proof.FaultFree
import BumbelBee.Proof.Layout
import BumbelBee.Proof.Atomic
import BumbelBee.Proof.Durable
import BumbelBee.Proof.Crash
import BumbelBee.Proof.Mount
import BumbelBee.Proof.Recorder
import BumbelBee.Proof.Replay
import BumbelBee.Proof.Divergence
import BumbelBee.Proof.Readers
import BumbelBee.Proof.Rendering
import BumbelBee.Proof.Texts
import BumbelBee.Proof.TraceNodes
import BumbelBee.Proof.SessionPaths
import BumbelBee.Proof.Descriptors
import BumbelBee.Proof.Monotone
import BumbelBee.Proof.SessionTable
import BumbelBee.Proof.Hashing
import BumbelBee.Proof.Schedule
import BumbelBee.Proof.TaskTable
import BumbelBee.Proof.Fairness
import BumbelBee.Proof.Accounting
import BumbelBee.Proof.RecorderRace
import BumbelBee.Proof.NetSpec
import BumbelBee.Proof.Transmit
import BumbelBee.Proof.Inbox
import BumbelBee.Proof.Keys
import BumbelBee.Proof.KeyBuffer
import BumbelBee.Proof.ShiftKeys
import BumbelBee.Proof.Pointer
import BumbelBee.Proof.Scrollback
import BumbelBee.Proof.Wrapping
import BumbelBee.Proof.Numerals
import BumbelBee.Proof.Formatter
import BumbelBee.Proof.FlushTicks
import BumbelBee.Proof.Wakeups
import BumbelBee.Proof.FlushRace
import BumbelBee.Proof.Interrupts
import BumbelBee.Proof.Origins
import BumbelBee.Proof.Session
import BumbelBee.Proof.Dispatch
import BumbelBee.Proof.Fidelity
import BumbelBee.Proof.Holders
import BumbelBee.Proof.RefCounts
import BumbelBee.Proof.AspaceMoves
import BumbelBee.Proof.Tenants
import BumbelBee.Proof.ExecJobs
import BumbelBee.Proof.Exposure
import BumbelBee.Proof.WriteCounts
import BumbelBee.Proof.Tables
import BumbelBee.Proof.Addressable
import BumbelBee.Proof.Allocator
import BumbelBee.Proof.Ownership
import BumbelBee.Proof.UserWindow
import BumbelBee.Proof.Spaces
import BumbelBee.Proof.Isolation
import BumbelBee.Proof.Loading
import BumbelBee.Proof.Headers
import BumbelBee.Proof.Resume
import BumbelBee.Proof.Transparent
import BumbelBee.Proof.Ring3
import BumbelBee.Proof.Printing
import BumbelBee.Proof.AtaPorts
import BumbelBee.Proof.Boot
