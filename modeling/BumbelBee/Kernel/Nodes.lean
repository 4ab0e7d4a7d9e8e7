import BumbelBee.Kernel.Netfs
import BumbelBee.Kernel.Tasks
import BumbelBee.Kernel.Vfs

/-!
# The nodes of the VFS (`kernel/vfs.c`, with `netfs_render_path`, `builtin_exec_render_path`)

A node's text is rendered anew for every read, into a buffer on the stack, and the descriptor
remembers how much of it has been read. What was in the buffer before, and what lies behind
it, is `scratch`.

The renderers are those of the source down to the order of their fields, since a reader gets a slice
of the text and what is at which offset is visible. A count that has run ahead of what was stored is
visible too: the slice is taken by the count.
-/

namespace BumbelBee
namespace Kernel

open Lib

/-- The tables the nodes are rendered from. -/
structure Nodes where
  devices : Devices
  tasks : TaskTable
  /-- `total_bytes` of `kernel/memory.c`. -/
  totalBytes : UInt64
  pageFaults : UInt64
  fs : Fs

/-! ## Paths -/

inductive VfsNodeType
  | net | procTasks | procMeminfo | procAspace | traceIndex | traceSession | traceMeta | bin
deriving DecidableEq, Repr

/-- `path_kind`; `none` for `VFS_NODE_INVALID`. -/
def pathKind (path : List UInt8) : Option VfsNodeType :=
  if path = [] then none
  else if path.take 5 = cstr "/net/" ∨ path = cstr "/net" then some .net
  else if path = cstr "/proc/tasks" then some .procTasks
  else if path = cstr "/proc/meminfo" then some .procMeminfo
  else if path = cstr "/proc/aspace" then some .procAspace
  else if path = cstr "/trace" ∨ path = cstr "/trace/" ∨ path = cstr "/trace/index" then
    some .traceIndex
  else if path = cstr "/bin" ∨ path = cstr "/bin/" ∨ path = cstr "/bin/index" then some .bin
  else if path.take 5 = cstr "/bin/" then some .bin
  else if path.length > 11 ∧ path.take 15 = cstr "/trace/session-" then
    if path.drop (path.length - 4) = cstr ".bin" then some .traceSession
    else if path.drop (path.length - 5) = cstr ".meta" then some .traceMeta
    else none
  else none

/-! ## `/net` -/

/-- A character of a packet, as `/net/rx/last` shows it. -/
def shownChar (ch : UInt8) : UInt8 :=
  if ch < 32 ∨ ch > 126 ∨ ch = 0x22 ∨ ch = 0x5c then 0x2e else ch

def renderNetStats (cap : UInt32) (n : Netfs) : Rendered :=
  let r := appendStr cap ⟨[], 0⟩ (cstr "tx_packets=")
  let r := appendU64 cap r n.stats.txPackets
  let r := appendStr cap r (cstr " tx_bytes=")
  let r := appendU64 cap r n.stats.txBytes
  let r := appendStr cap r (cstr " rx_packets=")
  let r := appendU64 cap r n.stats.rxPackets
  let r := appendStr cap r (cstr " rx_bytes=")
  let r := appendU64 cap r n.stats.rxBytes
  let r := appendStr cap r (cstr " dropped=")
  let r := appendU64 cap r n.stats.droppedPackets
  let r := appendStr cap r (cstr " queue_depth=")
  let r := appendU64 cap r n.rxCount.toUInt64
  let r := appendStr cap r (cstr " tx_pending=")
  let r := appendU64 cap r n.txCount.toUInt64
  let r := appendStr cap r (cstr " loopback=")
  let r := appendU64 cap r n.stats.loopbackEnabled.toUInt64
  let r := appendStr cap r (cstr " last_packet=")
  let r := appendU64 cap r n.stats.lastPacketId
  appendChar cap r 0x0a

def renderNetLoopback (cap : UInt32) (n : Netfs) : Rendered :=
  let r := appendU64 cap ⟨[], 0⟩ n.stats.loopbackEnabled.toUInt64
  appendChar cap r 0x0a

def renderNetExplain (cap : UInt32) : Rendered :=
  let r := appendStr cap ⟨[], 0⟩ (cstr "netfs: packet i/o is modeled as files under /net.\n")
  let r := appendStr cap r (cstr "write /net/tx <payload> for outbound packets.\n")
  appendStr cap r (cstr "write /net/rx/inject <payload> for inbound packet injection.\n")

/-- The packet that came in `i`-th of those in the queue. -/
def Netfs.rxPacket (n : Netfs) (i : UInt32) : NetPacket :=
  n.rxQueue ((n.rxHead + i) % UInt32.ofNat netfsQueueCap).toNat

def renderNetRxQueue (cap : UInt32) (n : Netfs) : Rendered :=
  let r := appendStr cap ⟨[], 0⟩ (cstr "rx queue depth=")
  let r := appendU64 cap r n.rxCount.toUInt64
  let r := appendChar cap r 0x0a
  (List.range n.rxCount.toNat).foldl (fun r i =>
    let pkt := n.rxPacket (UInt32.ofNat i)
    let r := appendStr cap r (cstr "idx=")
    let r := appendU64 cap r (UInt64.ofNat i)
    let r := appendStr cap r (cstr " id=")
    let r := appendU64 cap r pkt.packetId
    let r := appendStr cap r (cstr " len=")
    let r := appendU64 cap r pkt.len.toUInt64
    appendChar cap r 0x0a) r

def renderNetRxLast (cap : UInt32) (n : Netfs) : Rendered :=
  if n.rxCount = 0 then appendStr cap ⟨[], 0⟩ (cstr "rx queue empty\n")
  else
    let pkt := n.rxPacket (n.rxCount - 1)
    let r := appendStr cap ⟨[], 0⟩ (cstr "packet id=")
    let r := appendU64 cap r pkt.packetId
    let r := appendStr cap r (cstr " len=")
    let r := appendU64 cap r pkt.len.toUInt64
    let r := appendStr cap r (cstr " data=\"")
    let r := pkt.payload.foldl (fun r ch => appendChar cap r (shownChar ch)) r
    appendStr cap r (cstr "\"\n")

/-- `netfs_render_path`; `none` for -1. -/
def netfsRenderPath (path : List UInt8) (cap : UInt32) (n : Netfs) : Option Rendered :=
  if path = cstr "/net/stats" then some (renderNetStats cap n)
  else if path = cstr "/net/config/loopback" then some (renderNetLoopback cap n)
  else if path = cstr "/net/explain" then some (renderNetExplain cap)
  else if path = cstr "/net/rx/queue" then some (renderNetRxQueue cap n)
  else if path = cstr "/net/rx/last" then some (renderNetRxLast cap n)
  else if path = cstr "/net/tx" then
    some (appendStr cap ⟨[], 0⟩ (cstr "write-only endpoint for outbound packets\n"))
  else none

/-! ## `/proc` -/

def renderProcTasks (cap : UInt32) (k : TaskTable) : Rendered :=
  (schedSnapshot k 8).foldl (fun r t =>
    let r := appendU64 cap r t.pid.toUInt64
    let r := appendChar cap r 0x20
    let r := appendU64 cap r t.parentPid.toUInt64
    let r := appendChar cap r 0x20
    let r := appendU64 cap r t.aspaceId.toUInt64
    let r := appendChar cap r 0x20
    let r := appendStr cap r (schedStateName t.state)
    let r := appendChar cap r 0x20
    let r := appendU64 cap r t.cpuTicks
    let r := appendChar cap r 0x20
    let r := appendU64 cap r t.yields
    let r := appendChar cap r 0x20
    let r := appendStr cap r t.execPath
    let r := appendChar cap r 0x20
    let r := appendStr cap r t.name
    appendChar cap r 0x0a)
    (appendStr cap ⟨[], 0⟩ (cstr "pid ppid aspace state cpu_ticks yields exec name\n"))

/-- `memory_free_bytes`. -/
def Memory.freeBytes (m : Memory) : UInt64 :=
  if m.allocLimit ≤ m.allocNext then 0 else m.allocLimit - m.allocNext

def renderProcMeminfo (cap : UInt32) (k : Nodes) : Rendered :=
  let m := k.tasks.procs.aspaces.memory
  let r := appendStr cap ⟨[], 0⟩ (cstr "MemTotal: ")
  let r := appendU64 cap r k.totalBytes
  let r := appendStr cap r (cstr "\nMemUsed: ")
  let r := appendU64 cap r m.usedBytes
  let r := appendStr cap r (cstr "\nMemFree: ")
  let r := appendU64 cap r m.freeBytes
  let r := appendStr cap r (cstr "\nPageFaults: ")
  let r := appendU64 cap r k.pageFaults
  appendChar cap r 0x0a

def AspaceKind.code : AspaceKind → UInt64
  | .kernel => 1
  | .userShared => 2

def aspaceSnapshot (s : Aspaces) (maxEntries : Nat) : List AspaceInfo :=
  ((List.finRange aspaceMax).filterMap fun i => (s.table i).map AspaceSlot.info).take maxEntries

def renderProcAspace (cap : UInt32) (s : Aspaces) : Rendered :=
  (aspaceSnapshot s 16).foldl (fun r a =>
    let r := appendU64 cap r a.id.toUInt64
    let r := appendChar cap r 0x20
    let r := appendU64 cap r a.kind.code
    let r := appendChar cap r 0x20
    let r := appendU64 cap r a.refcount.toUInt64
    let r := appendChar cap r 0x20
    let r := appendU64 cap r (if a.isolated then 1 else 0)
    let r := appendChar cap r 0x20
    let r := appendU64 cap r a.cr3
    let r := appendChar cap r 0x20
    let r := appendU64 cap r a.userStackTop
    let r := appendChar cap r 0x20
    let r := appendStr cap r a.label
    appendChar cap r 0x0a)
    (appendStr cap ⟨[], 0⟩ (cstr "id kind refs isolated cr3 ustack label\n"))

/-! ## `/trace` and `/bin` -/

def renderTraceIndex (cap : UInt32) (fs : Fs) : Rendered :=
  (fsSnapshotTraces fs 16).foldl (fun r t =>
    let r := appendStr cap r (cstr "session-")
    let r := appendU64 cap r t.sessionId.toUInt64
    let r := appendStr cap r (cstr ".bin size=")
    let r := appendU64 cap r t.sizeBytes.toUInt64
    let r := appendStr cap r (cstr " events=")
    let r := appendU64 cap r t.eventCount
    appendChar cap r 0x0a)
    (appendStr cap ⟨[], 0⟩ (cstr "trace sessions\n"))

/-- The string at `inodes[i].name`; a name that fills its field runs on behind it. -/
def Inode.nameString (n : Inode) : List UInt8 :=
  (n.name.bytes ++ n.reserved.bytes).takeWhile (· ≠ 0)

/-- `fs_snapshot_execs`, into `char paths[][32]`. -/
def fsSnapshotExecs (fs : Fs) (maxEntries : Nat) : List (List UInt8) :=
  (((List.finRange fsMaxInodes).filter fun i => (fs.inodes i).isExec).take maxEntries).map
    fun i => (fs.inodes i).nameString.take 31

def ProgramEntry.summary : ProgramEntry → List UInt8
  | .ping => cstr "send file-modeled ICMP over /net"
  | .ring3 => cstr "enter ring3, issue int 0x80, and return"
  | .ps => cstr "dump process and scheduler table"
  | .netstat => cstr "print network filesystem counters"

def ProgramEntry.mode : ProgramEntry → List UInt8
  | .ring3 => cstr "user-transition"
  | _ => cstr "kernel-task"

/-- The list of executables: those on the disk, or the built-in ones when there are none. -/
def renderBinIndex (cap : UInt32) (fs : Fs) : Rendered :=
  let execs := fsSnapshotExecs fs 8
  let r := appendStr cap ⟨[], 0⟩ (cstr "executables:\n")
  if execs ≠ [] then
    execs.foldl (fun r path =>
      let r := appendStr cap r (cstr "  ")
      let r := appendStr cap r path
      appendChar cap r 0x0a) r
  else
    programs.foldl (fun r prog =>
      let r := appendStr cap r (cstr "  ")
      let r := appendStr cap r prog.path
      let r := appendStr cap r (cstr " : ")
      let r := appendStr cap r prog.entry.summary
      appendChar cap r 0x0a) r

def renderProgram (cap : UInt32) (prog : BuiltinProgram) (disk : Bool) (info : ElfInfo) :
    Rendered :=
  let r := appendStr cap ⟨[], 0⟩ (cstr "path=")
  let r := appendStr cap r prog.path
  let r := appendStr cap r (cstr "\nsummary=")
  let r := appendStr cap r prog.entry.summary
  let r := appendStr cap r (cstr "\nmode=")
  let r := appendStr cap r prog.entry.mode
  let r := appendStr cap r (cstr "\nsource=")
  let r := appendStr cap r (if disk then cstr "disk" else cstr "kernel")
  let r := appendStr cap r (cstr "\nelf.machine=")
  let r := appendU64 cap r info.machine.toUInt64
  let r := appendStr cap r (cstr "\nelf.entry=")
  let r := appendU64 cap r info.entry
  let r := appendStr cap r (cstr "\nelf.phnum=")
  let r := appendU64 cap r info.phnum.toUInt64
  let r := appendStr cap r (cstr "\nelf.vaddr_range=")
  let r := appendU64 cap r info.firstVaddr
  let r := appendChar cap r 0x2d
  let r := appendU64 cap r info.lastVaddr
  appendChar cap r 0x0a

/-- `builtin_exec_render_path`; `none` for -1. The image of a program is read into a buffer
    that held `stack`; `around` is what lies around the image that is parsed. -/
def builtinExecRenderPath (path : List UInt8) (cap : UInt32) (stack : Nat → UInt8)
    (around : ImageMem) (fs : Fs) : Except Overrun (Option Rendered × Fs) := do
  if path = cstr "/bin" ∨ path = cstr "/bin/" ∨ path = cstr "/bin/index" then
    .ok (some (renderBinIndex cap fs), fs)
  else
    match findProgram path with
    | none => .ok (none, fs)
    | some prog =>
      let (disk, fs) ← renderPathImage path stack fs
      let image := disk.getD prog.image
      .ok ((elfParseImage (imageMem image around) (UInt64.ofNat image.length)).map
        (renderProgram cap prog disk.isSome), fs)

/-! ## Descriptors -/

abbrev vfsMaxFds : Nat := 32
def vfsPathMax : Nat := 64

def vfsORdonly : UInt32 := 1
def vfsOWronly : UInt32 := 2

/-- A used `struct vfs_fd`. -/
structure VfsFd where
  flags : UInt32
  pos : UInt32
  type : VfsNodeType
  path : List UInt8
deriving DecidableEq, Repr

/-- The branches of `read_from_node` that render a text. -/
def renderNode (fd : VfsFd) (stack : Nat → UInt8) (around : ImageMem) (k : Nodes) :
    Except Overrun (Option Rendered × Nodes) :=
  let cap := UInt32.ofNat vfsScratchMax
  match fd.type with
  | .net => .ok (netfsRenderPath fd.path cap k.devices.net, k)
  | .procTasks => .ok (some (renderProcTasks cap k.tasks), k)
  | .procMeminfo => .ok (some (renderProcMeminfo cap k), k)
  | .procAspace => .ok (some (renderProcAspace cap k.tasks.procs.aspaces), k)
  | .traceIndex => .ok (some (renderTraceIndex cap k.fs), k)
  | .bin => do
    let (r, fs) ← builtinExecRenderPath fd.path cap stack around k.fs
    .ok (r, { k with fs })
  | .traceSession | .traceMeta => .ok (none, k)

/-- The bytes read (`none` for -1) and the descriptor's new position. -/
def readRendered (r : Option Rendered) (scratch : Nat → UInt8) (pos : UInt32) (bytes : UInt64) :
    Option (List UInt8) × UInt32 :=
  match r with
  | none => (none, pos)
  | some r =>
    if pos ≥ r.pos then (some [], pos)
    else
      let n := readLength bytes r.pos pos
      (some (r.slice scratch pos.toNat n.toNat), pos + n)

/-- What a read finds on the stack: in the scratch buffer, in the buffer for an image, and
    around an image. -/
structure ReadFrame where
  scratch : Nat → UInt8
  stack : Nat → UInt8
  around : ImageMem

/-- `read_from_node`. -/
def readFromNode (fd : VfsFd) (bytes : UInt64) (f : ReadFrame) (k : Nodes) :
    Except Overrun (Option (List UInt8) × UInt32 × Nodes) :=
  match fd.type with
  | .traceSession => do
    let (out, pos, fs) ← readTraceFile fd.path fd.pos bytes false f.scratch k.fs
    .ok (out, pos, { k with fs })
  | .traceMeta => do
    let (out, pos, fs) ← readTraceFile fd.path fd.pos bytes true f.scratch k.fs
    .ok (out, pos, { k with fs })
  | _ => do
    let (r, k) ← renderNode fd f.stack f.around k
    let (out, pos) := readRendered r f.scratch fd.pos bytes
    .ok (out, pos, k)

/-- `fd_table`, and what its descriptors are opened on. -/
structure Vfs where
  fdTable : Fin vfsMaxFds → Option VfsFd
  nodes : Nodes

/-- `vfs_init`. -/
def vfsInit (k : Nodes) : Vfs := ⟨fun _ => none, k⟩

/-- `vfs_open`: the descriptor, or `none` for -1. -/
def vfsOpen (path : List UInt8) (flags : UInt32) (v : Vfs) : Option (Fin vfsMaxFds) × Vfs :=
  match pathKind path with
  | none => (none, v)
  | some kind =>
    match (List.finRange vfsMaxFds).find? fun i => (v.fdTable i).isNone with
    | none => (none, v)
    | some i =>
      if path.length ≥ vfsPathMax then (none, v)
      else (some i, { v with
        fdTable := Function.update v.fdTable i (some ⟨flags, 0, kind, path⟩) })

/-- The used descriptor of that number. -/
def Vfs.findFd (fd : Int) (v : Vfs) : Option (Fin vfsMaxFds × VfsFd) :=
  if h : 0 ≤ fd ∧ fd.toNat < vfsMaxFds then (v.fdTable ⟨fd.toNat, h.2⟩).map fun d => (⟨_, h.2⟩, d)
  else none

/-- `vfs_read`: the bytes read, or `none` for -1. -/
def vfsRead (fd : Int) (bytes : UInt64) (f : ReadFrame) (v : Vfs) :
    Except Overrun (Option (List UInt8) × Vfs) :=
  match v.findFd fd with
  | none => .ok (none, v)
  | some (i, d) =>
    if d.flags = vfsOWronly then .ok (none, v)
    else do
      let (out, pos, nodes) ← readFromNode d bytes f v.nodes
      .ok (out, ⟨Function.update v.fdTable i (some { d with pos }), nodes⟩)

/-- `vfs_write`: how much was written, or `none` for -1. -/
def vfsWrite (fd : Int) (data : List UInt8) (v : Vfs) : Option Nat × Vfs :=
  match v.findFd fd with
  | none => (none, v)
  | some (_, d) =>
    if d.flags = vfsORdonly ∨ d.type ≠ .net then (none, v)
    else
      let data := data.take 256
      -- what the driver is handed ends at the first NUL
      match netfsWritePath d.path (data.takeWhile (· ≠ 0)) v.nodes.devices with
      | (rc, devices) =>
        (if rc = 0 then some data.length else none, { v with nodes := { v.nodes with devices } })

/-- `vfs_close`; `false` for -1. -/
def vfsClose (fd : Int) (v : Vfs) : Bool × Vfs :=
  match v.findFd fd with
  | none => (false, v)
  | some (i, _) => (true, { v with fdTable := Function.update v.fdTable i none })

end Kernel
end BumbelBee
