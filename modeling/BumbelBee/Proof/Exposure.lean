import BumbelBee.Proof.Inbox
import BumbelBee.Proof.Interrupts
import BumbelBee.Proof.Keys
import BumbelBee.Proof.Tenants
import BumbelBee.Proof.TraceNodes

/-!
# Does a read hand over what was never rendered?

The renderers count every character and store those that fit; `read_from_node` goes by what
they count. All texts but one fit in every state the kernel reaches, however long it runs. The
list of received packets is the one that may not: once the packet ids are long enough, a read
of `/net/rx/queue` hands over the kernel's stack.

The buffers are on the kernel's stack and are not cleared, so a byte that is returned and was not
stored is whatever a call before has left there. The proof has to follow the count and the stores of
every renderer separately, through nested ones too, and to bound the texts in every state that is
reached: counters have as many digits as a `u64`, and names are as long as their arrays.
-/

namespace BumbelBee
namespace Proof

open Lib Kernel

/-! ## The recorder behind the drivers -/

/-- The recorder is within its buffer. -/
def EventsFit (d : Devices) : Prop := d.trace.currentEvents.toNat ≤ traceBufferCap

section
variable {d d' : Devices}

theorem EventsFit.same (h : EventsFit d) (htrace : d'.trace = d.trace) : EventsFit d' := by
  rw [EventsFit, htrace]
  exact h

theorem EventsFit.record (h : EventsFit d) (type : TraceEventType) (pid : UInt32)
    (data0 data1 : UInt64) : EventsFit (d.record type pid data0 data1) :=
  RecordCall.currentEvents ⟨d.ticks, d.currentPid, type.code, pid, data0, data1⟩ h

theorem EventsFit.receive (h : EventsFit d) (data : List UInt8) (len : UInt32) :
    EventsFit (enqueueRxPacket data len d) := EventsFit.record (h.same rfl) _ _ _ _

theorem EventsFit.transmit (h : EventsFit d) (data : List UInt8) (len : UInt32) :
    EventsFit (transmitNow data len d) := by
  let d₁ : Devices := { d with
    net := { d.net with stats := { d.net.stats with
      txPackets := d.net.stats.txPackets + 1
      txBytes := d.net.stats.txBytes + len.toUInt64 } }
    sent := d.sent ++ [data.take len.toNat] }
  have hsent : EventsFit (d₁.record .net 0 netEventTx len.toUInt64) :=
    EventsFit.record (d := d₁) h .net 0 netEventTx len.toUInt64
  by_cases hloop : d.net.stats.loopbackEnabled != 0
  · have hrun : transmitNow data len d =
        enqueueRxPacket data len (d₁.record .net 0 netEventTx len.toUInt64) := if_pos hloop
    rw [hrun]
    exact hsent.receive data len
  · have hrun : transmitNow data len d = d₁.record .net 0 netEventTx len.toUInt64 := if_neg hloop
    rw [hrun]
    exact hsent

theorem EventsFit.flushLoop (n : Nat) (flushed : UInt32 × UInt32) (h : EventsFit d) :
    EventsFit (flushLoop n flushed d).2 := by
  induction n generalizing flushed d with
  | zero => exact h
  | succ n ih => exact ih _ ((h.transmit _ _).same rfl)

theorem EventsFit.flush (h : EventsFit d) : EventsFit (flushTxQueue d) := by
  have hloop := h.flushLoop d.net.txCount.toNat (0, 0)
  simp only [flushTxQueue, flushEnd, powerNoteNetFlushed]
  split
  · exact hloop.same rfl
  · exact EventsFit.record (hloop.same rfl) _ _ _ _

theorem EventsFit.enqueueTx {data : List UInt8} {len : UInt32} (h : EventsFit d)
    (hres : enqueueTxPacket data len d = some d') : EventsFit d' := by
  simp only [enqueueTxPacket] at hres
  split at hres
  · cases hres
  · obtain rfl := Option.some.inj hres
    exact h.same rfl

theorem EventsFit.queueTx (h : EventsFit d) (data : List UInt8) :
    EventsFit (netfsQueueTx data d).2 := by
  have hbatch : ∀ d' : Devices, EventsFit d' →
      EventsFit (if d'.net.txCount ≥ powerNetBatchLimit d'.power then flushTxQueue d' else d') := by
    intro d' h'
    split
    · exact h'.flush
    · exact h'
  unfold netfsQueueTx
  simp only
  cases hfirst : enqueueTxPacket data (UInt32.ofNat data.length) d with
  | some d₁ => exact hbatch d₁ (h.enqueueTx hfirst)
  | none =>
    simp only
    cases hsecond : enqueueTxPacket data (UInt32.ofNat data.length) (flushTxQueue d) with
    | some d₁ => exact hbatch d₁ (h.flush.enqueueTx hsecond)
    | none => exact h.flush

theorem EventsFit.write (h : EventsFit d) (path data : List UInt8) :
    EventsFit (netfsWritePath path data d).2 := by
  unfold netfsWritePath
  simp only
  split
  · split
    · exact EventsFit.record (h.same rfl) _ _ _ _
    · exact h
  · split
    · exact h.receive _ _
    · split
      · split
        · exact h.transmit _ _
        · exact h.queueTx data
      · exact h

theorem EventsFit.tick (h : EventsFit d) : EventsFit (powerTickHook d) := by
  rcases powerTickHook_spec d with ⟨-, hmoved⟩ | ⟨-, -, d₁, hmoved, hrun⟩
  · exact h.same hmoved.trace
  · rw [hrun]
    exact (h.same hmoved.trace).flush.same rfl

theorem EventsFit.irq (h : EventsFit d) (i : Irq) : EventsFit (isrDispatch i d) := by
  unfold isrDispatch
  split
  · exact h
  · have hrecorded := h.record .irq 0 i.vector 0
    cases i with
    | timer => exact EventsFit.tick (hrecorded.same rfl)
    | keyboard scancode =>
      obtain ⟨-, -, htrace⟩ := keyboardHandleScancode_trace scancode
        (d.record .irq 0 (Irq.keyboard scancode).vector 0)
      split at htrace
      · exact EventsFit.same (hrecorded.record _ _ _ _) htrace
      · exact hrecorded.same htrace
    | other line => exact hrecorded

theorem EventsFit.keyOp (h : EventsFit d) (op : KeyOp) : EventsFit (op.run d) := by
  cases op with
  | key ch =>
    simp only [KeyOp.run, powerKeyboardChar]
    split <;> exact h.same rfl
  | getchar => exact h.same rfl
  | net op =>
    cases op with
    | tx data => exact h.write _ data
    | inject data => exact h.write _ data
    | loopback data => exact h.write _ data
    | flush => exact h.flush
    | tick => exact h.tick
    | setMode mode =>
      simp only [KeyOp.run, NetOp.run, powerSetMode]
      split
      · exact h
      · exact EventsFit.record (h.same rfl) _ _ _ _

end

/-! The rings stay rings, whatever path is written to and whatever interrupt comes in. -/

theorem netfsWritePath_cases (path data : List UInt8) (d : Devices) :
    (∃ op : NetOp, (netfsWritePath path data d).2 = (op.run d).2) ∨
      (netfsWritePath path data d).2 = d := by
  by_cases hloopback : path = cstr "/net/config/loopback"
  · exact Or.inl ⟨.loopback data, by rw [hloopback]; rfl⟩
  by_cases hinject : path = cstr "/net/rx/inject"
  · exact Or.inl ⟨.inject data, by rw [hinject]; rfl⟩
  by_cases htx : path = cstr "/net/tx"
  · exact Or.inl ⟨.tx data, by rw [htx]; rfl⟩
  · refine Or.inr ?_
    unfold netfsWritePath
    rw [if_neg hloopback, if_neg hinject, if_neg htx]

theorem Rings.write {d : Devices} (h : Rings d.net) (path data : List UInt8) :
    Rings (netfsWritePath path data d).2.net := by
  rcases netfsWritePath_cases path data d with ⟨op, hrun⟩ | hsame
  · rw [hrun]
    exact (NetOp.run_step h op).rings h
  · rw [hsame]
    exact h

theorem Rings.irq {d : Devices} (h : Rings d.net) (i : Irq) : Rings (isrDispatch i d).net := by
  rcases isrDispatch_spec i d with ⟨-, hnet, -⟩ | ⟨-, -, d₁, hnet, -, hflushed, -⟩
  · rw [hnet]
    exact h
  · rw [hflushed]
    exact (flushTxQueue_spec (by rw [hnet]; exact h)).rings

/-! ## Everything that happens

The tables behind the nodes belong to the tasks, the recorder, the store and the drivers, and the
steps are theirs: none is left out that could make a text longer.
-/

/-- A step of the kernel, as far as it reaches a table behind the VFS or a descriptor. -/
inductive VfsOp
  | device (op : KeyOp)
  | irq (i : Irq)
  | pageFault (errorCode : UInt64)
  | task (op : TableOp)
  | recorder (op : RecorderOp)
  | open (path : List UInt8) (flags : UInt32)
  | read (fd : Int) (bytes : UInt64) (f : ReadFrame)
  | write (fd : Int) (data : List UInt8)
  | close (fd : Int)

/-- An interrupt, with the scheduler's part of the timer's. -/
def Nodes.irq (i : Irq) (k : Nodes) : Nodes :=
  { k with
    devices := isrDispatch i k.devices
    tasks := if i = .timer ∧ k.devices.trace.replay.active = false then k.tasks.tick else k.tasks }

/-- The pid the drivers see is the running task's. -/
def Nodes.task (op : TableOp) (k : Nodes) : Nodes :=
  let tasks := op.run k.tasks
  { k with tasks, devices := { k.devices with currentPid := tasks.procs.sched.currentPid } }

def Nodes.recorder (op : RecorderOp) (k : Nodes) : Nodes :=
  let (trace, fs) := op.run (k.devices.trace, k.fs)
  { k with devices := { k.devices with trace }, fs }

def VfsOp.run : VfsOp → Vfs → Except Overrun Vfs
  | .device op, v => .ok { v with nodes := { v.nodes with devices := op.run v.nodes.devices } }
  | .irq i, v => .ok { v with nodes := Nodes.irq i v.nodes }
  | .pageFault errorCode, v => .ok { v with nodes := { v.nodes with
      devices := v.nodes.devices.record .irq 0 14 errorCode
      pageFaults := v.nodes.pageFaults + 1 } }
  | .task op, v => .ok { v with nodes := Nodes.task op v.nodes }
  | .recorder op, v => .ok { v with nodes := Nodes.recorder op v.nodes }
  | .open path flags, v => .ok (vfsOpen path flags v).2
  | .read fd bytes f, v => (vfsRead fd bytes f v).map Prod.snd
  | .write fd data, v => .ok (vfsWrite fd data v).2
  | .close fd, v => .ok (vfsClose fd v).2

def VfsOp.Enabled : VfsOp → Vfs → Prop
  | .task op, v => op.Enabled v.nodes.tasks
  | _, _ => True

/-- The kernel as it has booted, from a drive and with the memory it finds. -/
def kernelBoot (a : Ata) (m : Memory) (totalBytes : UInt64) : Vfs :=
  vfsInit {
    devices := booted { Devices.loaded with trace := traceInit Trace.loaded }
    tasks := taskTableBoot m
    totalBytes
    pageFaults := 0
    fs := fsBoot a }

/-- What a boot and any steps reach. -/
inductive VfsReaches (a : Ata) (m : Memory) (totalBytes : UInt64) : Vfs → Prop
  | boot : VfsReaches a m totalBytes (kernelBoot a m totalBytes)
  | step {v v' : Vfs} (op : VfsOp) (h : VfsReaches a m totalBytes v) (henabled : op.Enabled v)
      (hrun : op.run v = .ok v') : VfsReaches a m totalBytes v'

/-! ## The invariant -/

/-- Reading leaves all but the drive as it was. -/
theorem readTraceFile_memory {path : List UInt8} {pos pos' : UInt32} {bytes : UInt64}
    {metadataOnly : Bool} {stack : Nat → UInt8} {fs fs' : Fs} {out : Option (List UInt8)}
    (h : readTraceFile path pos bytes metadataOnly stack fs = .ok (out, pos', fs')) :
    ∃ ata, fs' = { fs with ata } := by
  unfold readTraceFile at h
  cases hid : parseTraceSessionId path with
  | none =>
    rw [hid] at h
    cases h
    exact ⟨fs.ata, rfl⟩
  | some id =>
    cases hinfo : fsGetTraceSessionInfo id fs with
    | none =>
      simp only [hid, hinfo] at h
      cases h
      exact ⟨fs.ata, rfl⟩
    | some info =>
      simp only [hid, hinfo] at h
      split at h
      · split at h <;> cases h <;> exact ⟨fs.ata, rfl⟩
      · split at h
        · cases h
          exact ⟨fs.ata, rfl⟩
        · cases hread : fsReadTraceSession id (⟨stack⟩ : VfsScratch) fs with
          | error e =>
            rw [hread] at h
            cases h
          | ok r =>
            obtain ⟨total, scratch, fs₁⟩ := r
            rw [hread] at h
            obtain ⟨ata, rfl⟩ := fsReadInode_memory hread
            refine ⟨ata, ?_⟩
            simp only [bind, Except.bind] at h
            split at h
            · cases h
              rfl
            · split at h <;> cases h <;> rfl

theorem renderPathImage_memory {path : List UInt8} {stack : Nat → UInt8} {fs fs' : Fs}
    {image : Option (List UInt8)} (h : renderPathImage path stack fs = .ok (image, fs')) :
    ∃ ata, fs' = { fs with ata } := by
  unfold renderPathImage at h
  split at h
  · cases h
    exact ⟨fs.ata, rfl⟩
  split at h
  · unfold readImage fsReadExecFile at h
    cases hread : fsReadInode (fsFindExec fs.inodes path) (⟨stack⟩ : ImageBuffer) fs with
    | error e =>
      rw [hread] at h
      cases h
    | ok r =>
      rw [hread] at h
      obtain ⟨bytes, buf, fs₁⟩ := r
      obtain ⟨ata, rfl⟩ := fsReadInode_memory hread
      cases h
      exact ⟨ata, rfl⟩
  · cases h
    exact ⟨fs.ata, rfl⟩

theorem builtinExecRenderPath_memory {path : List UInt8} {cap : UInt32} {stack : Nat → UInt8}
    {around : ImageMem} {fs fs' : Fs} {r : Option Kernel.Rendered}
    (h : builtinExecRenderPath path cap stack around fs = .ok (r, fs')) :
    ∃ ata, fs' = { fs with ata } := by
  unfold builtinExecRenderPath at h
  split at h
  · cases h
    exact ⟨fs.ata, rfl⟩
  · split at h
    · cases h
      exact ⟨fs.ata, rfl⟩
    · cases himage : renderPathImage path stack fs with
      | error e =>
        rw [himage] at h
        cases h
      | ok image =>
        rw [himage] at h
        obtain ⟨disk, fs₁⟩ := image
        obtain ⟨ata, rfl⟩ := renderPathImage_memory himage
        cases h
        exact ⟨ata, rfl⟩

theorem renderNode_memory {d : VfsFd} {stack : Nat → UInt8} {around : ImageMem} {k k' : Nodes}
    {r : Option Kernel.Rendered} (h : renderNode d stack around k = .ok (r, k')) :
    ∃ ata, k' = { k with fs := { k.fs with ata } } := by
  unfold renderNode at h
  simp only at h
  split at h
  case h_6 =>
    cases hrender : builtinExecRenderPath d.path (UInt32.ofNat vfsScratchMax) stack around k.fs with
    | error e =>
      rw [hrender] at h
      cases h
    | ok out =>
      rw [hrender] at h
      obtain ⟨r, fs₁⟩ := out
      obtain ⟨ata, rfl⟩ := builtinExecRenderPath_memory hrender
      cases h
      exact ⟨ata, rfl⟩
  all_goals
    cases h
    exact ⟨k.fs.ata, rfl⟩

theorem readFromNode_memory {d : VfsFd} {bytes : UInt64} {f : ReadFrame} {k k' : Nodes}
    {out : Option (List UInt8)} {pos : UInt32} (h : readFromNode d bytes f k = .ok (out, pos, k')) :
    ∃ ata, k' = { k with fs := { k.fs with ata } } := by
  have hfile : ∀ metadataOnly, (readTraceFile d.path d.pos bytes metadataOnly f.scratch k.fs >>=
      fun r => Except.ok (r.1, r.2.1, { k with fs := r.2.2 })) = .ok (out, pos, k') →
        ∃ ata, k' = { k with fs := { k.fs with ata } } := by
    intro metadataOnly h
    cases hread : readTraceFile d.path d.pos bytes metadataOnly f.scratch k.fs with
    | error e =>
      rw [hread] at h
      cases h
    | ok r =>
      rw [hread] at h
      obtain ⟨out, pos, fs₁⟩ := r
      obtain ⟨ata, rfl⟩ := readTraceFile_memory hread
      cases h
      exact ⟨ata, rfl⟩
  unfold readFromNode at h
  split at h
  · exact hfile false h
  · exact hfile true h
  · cases hrender : renderNode d f.stack f.around k with
    | error e =>
      rw [hrender] at h
      cases h
    | ok r =>
      rw [hrender] at h
      obtain ⟨r, k₁⟩ := r
      obtain ⟨ata, rfl⟩ := renderNode_memory hrender
      cases h
      exact ⟨ata, rfl⟩

/-! ## The table and the rings -/

/-- The device queues are rings, and a descriptor is of its path's kind. -/
structure Wired (v : Vfs) : Prop where
  rings : Rings v.nodes.devices.net
  typed : ∀ i d, v.fdTable i = some d → pathKind d.path = some d.type

section
variable {v v' : Vfs}

/-- Descriptors come and go. -/
theorem Wired.withTable (h : Wired v) {k : Nodes} (hrings : Rings k.devices.net)
    {i : Fin vfsMaxFds} {slot : Option VfsFd}
    (hslot : ∀ d, slot = some d → pathKind d.path = some d.type) :
    Wired ⟨Function.update v.fdTable i slot, k⟩ := by
  refine ⟨hrings, fun j d hd => ?_⟩
  by_cases hj : j = i
  · subst hj
    simp only [Function.update_self] at hd
    exact hslot d hd
  · simp only [Function.update_of_ne hj] at hd
    exact h.typed j d hd

theorem vfsOpen_nodes (path : List UInt8) (flags : UInt32) (v : Vfs) :
    (vfsOpen path flags v).2.nodes = v.nodes := by
  rcases vfsOpen_cases path flags v with hopen | ⟨kind, i, -, -, hopen⟩ <;> rw [hopen]

theorem vfsClose_nodes (fd : Int) (v : Vfs) : (vfsClose fd v).2.nodes = v.nodes := by
  rcases vfsClose_cases fd v with hclose | ⟨i, d, -, -, hclose⟩ <;> rw [hclose]

/-- A read moves the drive, and the position of a descriptor it found. -/
theorem vfsRead_cases {fd : Int} {bytes : UInt64} {f : ReadFrame} {out : Option (List UInt8)}
    (h : vfsRead fd bytes f v = .ok (out, v')) :
    v' = v ∨ ∃ i d pos ata, v.fdTable i = some d ∧
      v' = ⟨Function.update v.fdTable i (some { d with pos }),
        { v.nodes with fs := { v.nodes.fs with ata } }⟩ := by
  rcases vfsRead_inv h with ⟨-, hsame⟩ | ⟨i, d, pos, k, -, hd, -, hread, rfl⟩
  · exact Or.inl hsame
  · obtain ⟨ata, rfl⟩ := readFromNode_memory hread
    exact Or.inr ⟨i, d, pos, ata, hd, rfl⟩

/-- A write moves the devices, by way of the driver. -/
theorem vfsWrite_cases (fd : Int) (data : List UInt8) (v : Vfs) :
    (vfsWrite fd data v).2 = v ∨ ∃ path data', (vfsWrite fd data v).2 =
      { v with nodes := { v.nodes with
        devices := (netfsWritePath path data' v.nodes.devices).2 } } := by
  unfold vfsWrite
  split
  · exact Or.inl rfl
  split
  · exact Or.inl rfl
  · exact Or.inr ⟨_, _, rfl⟩

theorem Wired.step (h : Wired v) {op : VfsOp} (hrun : op.run v = .ok v') : Wired v' := by
  cases op with
  | device op =>
    cases hrun
    exact ⟨op.run_rings h.rings, h.typed⟩
  | irq i =>
    cases hrun
    exact ⟨Rings.irq h.rings i, h.typed⟩
  | pageFault errorCode =>
    cases hrun
    exact ⟨h.rings, h.typed⟩
  | task op =>
    cases hrun
    exact ⟨h.rings, h.typed⟩
  | recorder op =>
    cases hrun
    exact ⟨h.rings, h.typed⟩
  | «open» path flags =>
    cases hrun
    rcases vfsOpen_cases path flags v with hopen | ⟨kind, i, hkind, -, hopen⟩
    · rw [hopen]
      exact h
    · rw [hopen]
      refine h.withTable h.rings fun d hd => ?_
      cases hd
      exact hkind
  | read fd bytes f =>
    simp only [VfsOp.run] at hrun
    cases hread : vfsRead fd bytes f v with
    | error e =>
      rw [hread] at hrun
      cases hrun
    | ok r =>
      obtain ⟨out, v₁⟩ := r
      rw [hread] at hrun
      cases hrun
      rcases vfsRead_cases hread with rfl | ⟨i, d, pos, ata, hd, rfl⟩
      · exact h
      · refine h.withTable (k := { v.nodes with fs := { v.nodes.fs with ata } }) h.rings
          fun d' hd' => ?_
        cases hd'
        exact h.typed i d hd
  | write fd data =>
    cases hrun
    rcases vfsWrite_cases fd data v with hsame | ⟨path, data', hwrite⟩
    · rw [hsame]
      exact h
    · rw [hwrite]
      exact ⟨Rings.write h.rings path data', h.typed⟩
  | close fd =>
    cases hrun
    rcases vfsClose_cases fd v with hclose | ⟨i, d, -, -, hclose⟩
    · rw [hclose]
      exact h
    · rw [hclose]
      exact h.withTable h.rings fun d hd => by cases hd

theorem VfsReaches.wired {a : Ata} {m : Memory} {totalBytes : UInt64}
    (h : VfsReaches a m totalBytes v) : Wired v := by
  induction h with
  | boot => exact ⟨booted_rings _, fun i d hd => by cases hd⟩
  | step op _ _ hrun ih => exact ih.step hrun

end

/-! ## All of it -/

/-- What every state the kernel reaches has. -/
structure Sane (v : Vfs) : Prop where
  rings : Rings v.nodes.devices.net
  bounded : Bounded (v.nodes.devices.trace, v.nodes.fs)
  offline : v.nodes.fs.online = false → v.nodes.fs.inodes = fun _ => Inode.zero
  housed : Housed v.nodes.tasks.procs
  short : ShortRests v.nodes.tasks
  typed : ∀ i d, v.fdTable i = some d → pathKind d.path = some d.type

theorem Sane.boot {a : Ata}
    (hdisk : ¬ Formatted a.sector ∨ Stocked (diskSuperblock a.sector) (diskInodes a.sector))
    (m : Memory) (totalBytes : UInt64) : Sane (kernelBoot a m totalBytes) where
  rings := booted_rings _
  bounded := Bounded.boot hdisk
  offline := fsInit_offline rfl
  housed := Housed.boot m
  short := ShortRests.boot m
  typed := fun i d hd => by cases hd

theorem Sane.table {v : Vfs} (h : Sane v) (op : TableOp) (henabled : op.Enabled v.nodes.tasks) :
    Housed (op.run v.nodes.tasks).procs := by
  rw [TableOp.run_procs]
  cases hop : op.procOp with
  | none => exact h.housed
  | some p => exact h.housed.step p (henabled p hop)

/-- **One step.** -/
theorem Sane.step {v v' : Vfs} (h : Sane v) {op : VfsOp} (henabled : op.Enabled v)
    (hrun : op.run v = .ok v') : Sane v' := by
  obtain ⟨hrings, htyped⟩ := Wired.step ⟨h.rings, h.typed⟩ hrun
  have hfit : EventsFit v.nodes.devices := h.bounded.events
  have hstocked := h.bounded.stocked
  cases op with
  | device op =>
    cases hrun
    exact ⟨hrings, ⟨hfit.keyOp op, hstocked⟩, h.offline, h.housed, h.short, htyped⟩
  | irq i =>
    cases hrun
    refine ⟨hrings, ⟨hfit.irq i, hstocked⟩, h.offline, ?_, ?_, htyped⟩
    · simp only [Nodes.irq]
      split
      · exact h.housed
      · exact h.housed
    · simp only [Nodes.irq]
      split
      · exact h.short.step .tick
      · exact h.short
  | pageFault errorCode =>
    cases hrun
    exact ⟨hrings, ⟨hfit.record _ _ _ _, hstocked⟩, h.offline, h.housed, h.short, htyped⟩
  | task op =>
    cases hrun
    exact ⟨hrings, h.bounded, h.offline, h.table op henabled, h.short.step op, htyped⟩
  | recorder op =>
    cases hrun
    refine ⟨hrings, h.bounded.step op, fun hoff => ?_, h.housed, h.short, htyped⟩
    simp only [Nodes.recorder] at hoff ⊢
    -- a store that is down takes no session
    rcases op.run_fs (v.nodes.devices.trace, v.nodes.fs) with ⟨ata, hfs⟩ | ⟨data, info, hfs⟩
    · rw [hfs] at hoff ⊢
      exact h.offline hoff
    · rw [hfs, fsWriteTraceSession_online] at hoff
      have hoff : v.nodes.fs.online = false := hoff
      have hrefused : fsWriteTraceSession data info v.nodes.fs = (none, v.nodes.fs) := by
        rw [fsWriteTraceSession, hoff]
        rfl
      rw [hfs, hrefused]
      exact h.offline hoff
  | «open» path flags =>
    cases hrun
    have hnodes := vfsOpen_nodes path flags v
    exact ⟨hrings, by rw [hnodes]; exact h.bounded, by rw [hnodes]; exact h.offline,
      by rw [hnodes]; exact h.housed, by rw [hnodes]; exact h.short, htyped⟩
  | read fd bytes f =>
    simp only [VfsOp.run] at hrun
    cases hread : vfsRead fd bytes f v with
    | error e =>
      rw [hread] at hrun
      cases hrun
    | ok r =>
      obtain ⟨out, v₁⟩ := r
      rw [hread] at hrun
      cases hrun
      rcases vfsRead_cases hread with rfl | ⟨i, d, pos, ata, -, rfl⟩
      · exact h
      · exact ⟨hrings, ⟨hfit, hstocked⟩, h.offline, h.housed, h.short, htyped⟩
  | write fd data =>
    cases hrun
    rcases vfsWrite_cases fd data v with hsame | ⟨path, data', hwrite⟩
    · rw [hsame]
      exact h
    · rw [hwrite] at hrings htyped ⊢
      exact ⟨hrings, ⟨hfit.write path data', hstocked⟩, h.offline, h.housed, h.short, htyped⟩
  | close fd =>
    cases hrun
    have hnodes := vfsClose_nodes fd v
    exact ⟨hrings, by rw [hnodes]; exact h.bounded, by rw [hnodes]; exact h.offline,
      by rw [hnodes]; exact h.housed, by rw [hnodes]; exact h.short, htyped⟩

theorem VfsReaches.sane {a : Ata} {m : Memory} {totalBytes : UInt64} {v : Vfs}
    (hdisk : ¬ Formatted a.sector ∨ Stocked (diskSuperblock a.sector) (diskInodes a.sector))
    (h : VfsReaches a m totalBytes v) : Sane v := by
  induction h with
  | boot => exact Sane.boot hdisk m totalBytes
  | step op _ henabled hrun ih => exact ih.step henabled hrun

/-! ## What a read returns

A text is rendered by the same call that hands it over, so a byte it returns is its own or was there
before. `ReadsStored` says it of every position and size a descriptor may be read with.
-/

/-- The text a read of the descriptor renders, if it renders one. -/
def renderedText (d : VfsFd) (f : ReadFrame) (k : Nodes) : Option Kernel.Rendered :=
  match d.type with
  | .traceSession => none
  | .traceMeta => ((parseTraceSessionId d.path).bind fun id => fsGetTraceSessionInfo id k.fs).map
      (traceMetaText (UInt32.ofNat vfsScratchMax))
  | _ =>
    match renderNode d f.stack f.around k with
    | .ok (r, _) => r
    | .error _ => none

/-- Every byte that a read of the descriptor returns, from any position and in a chunk of any
    size, was put into the buffer by the same call. -/
structure ReadsStored (d : VfsFd) (k : Nodes) : Prop where
  /-- The total that is reported counts stored characters. -/
  whole : ∀ f r, renderedText d f k = some r →
    Rendered.Whole r ∧ r.stored.length ≤ vfsScratchMax - 1
  /-- What the buffer held before has no part in what is returned. -/
  fresh : ∀ pos bytes (f : ReadFrame) scratch, readFromNode { d with pos } bytes { f with scratch } k =
    readFromNode { d with pos } bytes f k
  /-- Nothing is put behind the buffer. -/
  within : ∀ pos bytes f, (readFromNode { d with pos } bytes f k).isOk = true

/-- Of a text that is whole, a read takes what is stored. -/
theorem slice_fresh {r : Kernel.Rendered} (h : Rendered.Whole r) {pos : UInt32}
    (hpos : ¬ pos ≥ r.pos) (bytes : UInt64) (stack stack' : Nat → UInt8) :
    r.slice stack pos.toNat (readLength bytes r.pos pos).toNat =
      r.slice stack' pos.toNat (readLength bytes r.pos pos).toNat := by
  rw [ge_iff_le, UInt32.not_le] at hpos
  have hle : pos ≤ r.pos := UInt32.le_of_lt hpos
  have hlen := readLength_toNat bytes hle
  have hin : pos.toNat + (readLength bytes r.pos pos).toNat ≤ r.stored.length := by
    have hle' : pos.toNat ≤ r.pos.toNat := hle
    have hwhole : r.pos.toNat ≤ r.stored.length := h
    omega
  rw [slice_stored hin, slice_stored hin]

theorem readRendered_fresh {r : Kernel.Rendered} (h : Rendered.Whole r) (pos : UInt32)
    (bytes : UInt64) (scratch scratch' : Nat → UInt8) :
    readRendered (some r) scratch pos bytes = readRendered (some r) scratch' pos bytes := by
  unfold readRendered
  simp only
  split
  · rfl
  · rename_i hpos
    rw [slice_fresh h hpos bytes scratch scratch']

theorem readTraceFile_fresh {fs : Fs} (h : fs.online = true → Stocked fs.superblock fs.inodes)
    (path : List UInt8) (pos : UInt32) (bytes : UInt64) (metadataOnly : Bool)
    (stack stack' : Nat → UInt8) : readTraceFile path pos bytes metadataOnly stack fs =
      readTraceFile path pos bytes metadataOnly stack' fs := by
  unfold readTraceFile
  cases parseTraceSessionId path with
  | none => rfl
  | some id =>
    simp only
    cases hinfo : fsGetTraceSessionInfo id fs with
    | none => rfl
    | some info =>
      simp only
      split
      · split
        · rfl
        · rename_i hpos
          rw [slice_fresh (traceMetaText_fits info).whole hpos bytes stack stack']
      · split
        · rfl
        · rename_i hsmall
          rw [gt_iff_lt, UInt32.lt_iff_toNat_lt, toNat_scratchMax] at hsmall
          -- the session is found, and lies where its record says
          cases honline : fs.online with
          | false => simp [fsGetTraceSessionInfo, honline] at hinfo
          | true =>
            cases hfound : fsFindSession fs.inodes id with
            | none => simp [fsGetTraceSessionInfo, honline, hfound] at hinfo
            | some i =>
              rw [fsGetTraceSessionInfo_size hinfo hfound] at hsmall
              have hplaced := (h honline).placed honline (isTrace_used (fsFindSession_some hfound).1)
              obtain ⟨n, ok, -, hreads⟩ := fsReadInode_data hplaced (Nat.le_of_not_lt hsmall)
              obtain ⟨buf, hread, hdata⟩ := hreads (⟨stack⟩ : VfsScratch)
              obtain ⟨buf', hread', hdata'⟩ := hreads (⟨stack'⟩ : VfsScratch)
              simp only [fsReadTraceSession, hfound]
              rw [hread, hread']
              cases ok with
              | false => rfl
              | true =>
                simp only [bind, Except.bind, if_true]
                split
                · rfl
                · rename_i hpos
                  rw [ge_iff_le, UInt32.not_le] at hpos
                  have hle : pos ≤ (fs.inodes i).sizeBytes := UInt32.le_of_lt hpos
                  have hle' : pos.toNat ≤ (fs.inodes i).sizeBytes.toNat := hle
                  have hlen := readLength_toNat bytes hle
                  have hin : pos.toNat + (readLength bytes (fs.inodes i).sizeBytes pos).toNat ≤
                      (fs.inodes i).sizeBytes.toNat := by omega
                  rw [buf.slice_eq hin, buf'.slice_eq hin, hdata rfl, hdata' rfl]

/-! ## Every text but one fits

One lemma for each renderer, with the bounds of `Proof/Texts.lean` and the shapes of
`Proof/Tenants.lean`. That of the received packets is an equivalence.
-/

theorem Sane.rendered_fits {v : Vfs} (h : Sane v) {d : VfsFd} {f : ReadFrame}
    {r : Kernel.Rendered} (hr : renderedText d f v.nodes = some r)
    (hpath : d.path ≠ cstr "/net/rx/queue") : FitsScratch r := by
  unfold renderedText renderNode at hr
  cases htype : d.type with
  | net =>
    rw [htype] at hr
    exact netfsRenderPath_fits hr hpath
  | procTasks =>
    rw [htype] at hr
    obtain rfl := Option.some.inj hr
    exact h.short.fits
  | procMeminfo =>
    rw [htype] at hr
    obtain rfl := Option.some.inj hr
    rw [renderProcMeminfo_eq]
    exact fits_pieces ((meminfoPieces_most v.nodes).trans_le (by decide))
  | procAspace =>
    rw [htype] at hr
    obtain rfl := Option.some.inj hr
    exact h.housed.spaces.fits
  | traceIndex =>
    rw [htype] at hr
    obtain rfl := Option.some.inj hr
    rw [renderTraceIndex_eq]
    refine ⟨_, rfl, ?_⟩
    cases honline : v.nodes.fs.online with
    | true => exact length_traceIndexText (h.bounded.stocked honline)
    | false =>
      have hnone : traceInodes v.nodes.fs.inodes = [] := by
        rw [traceInodes, h.offline honline]
        exact List.filter_eq_nil_iff.mpr fun i _ => show ¬ Inode.zero.isTrace = true by decide
      rw [hnone, List.take_nil, traceIndexText, List.flatMap_nil, List.append_nil]
      decide
  | traceSession =>
    rw [htype] at hr
    cases hr
  | traceMeta =>
    rw [htype] at hr
    obtain ⟨info, -, rfl⟩ := Option.map_eq_some_iff.mp hr
    exact traceMetaText_fits info
  | bin =>
    rw [htype] at hr
    simp only at hr
    cases hrender : builtinExecRenderPath d.path (UInt32.ofNat vfsScratchMax) f.stack f.around
        v.nodes.fs with
    | error e =>
      rw [hrender] at hr
      cases hr
    | ok out =>
      rw [hrender] at hr
      obtain ⟨r', fs'⟩ := out
      simp only [bind, Except.bind] at hr
      subst hr
      exact builtinExecRenderPath_fits hrender

/-! ## When every read is of what was rendered -/

/-- The number of digits that fit in the list of received packets, beside the words. -/
def QueueListingFits (n : Netfs) : Prop := listedDigits n + 14 * n.rxCount.toNat ≤ 1007

theorem Sane.rendered_whole {v : Vfs} (h : Sane v) {d : VfsFd} {f : ReadFrame}
    {r : Kernel.Rendered} (hr : renderedText d f v.nodes = some r) (hkind : pathKind d.path = some d.type)
    (hlist : d.path = cstr "/net/rx/queue" → QueueListingFits v.nodes.devices.net) :
    Rendered.Whole r ∧ r.stored.length ≤ vfsScratchMax - 1 := by
  by_cases hpath : d.path = cstr "/net/rx/queue"
  · have hcount := h.rings.rxCount
    have htype : d.type = .net := by
      rw [hpath, show pathKind (cstr "/net/rx/queue") = some .net by decide] at hkind
      exact (Option.some.inj hkind).symm
    have hrender : r = renderNetRxQueue (UInt32.ofNat vfsScratchMax) v.nodes.devices.net := by
      simp only [renderedText, htype, renderNode, hpath, netfsRenderPath] at hr
      exact (Option.some.inj hr).symm
    subst hrender
    refine ⟨(renderNetRxQueue_whole_iff hcount).mpr (hlist hpath), ?_⟩
    have hlen := length_netRxQueueText_le hcount
    rw [renderNetRxQueue_eq]
    exact stored_rendered_le (by omega)
  · have hfits := h.rendered_fits hr hpath
    refine ⟨hfits.whole, ?_⟩
    obtain ⟨text, rfl, hlen⟩ := hfits
    have hmax : vfsScratchMax = 1024 := rfl
    exact stored_rendered_le (by omega)

theorem readFromNode_fresh {d : VfsFd} {k : Nodes}
    (hstocked : k.fs.online = true → Stocked k.fs.superblock k.fs.inodes)
    (hwhole : ∀ f r, renderedText d f k = some r → Rendered.Whole r) (pos : UInt32)
    (bytes : UInt64) (f : ReadFrame) (scratch : Nat → UInt8) :
    readFromNode { d with pos } bytes { f with scratch } k =
      readFromNode { d with pos } bytes f k := by
  unfold readFromNode
  simp only
  split
  · rw [readTraceFile_fresh hstocked d.path pos bytes false scratch f.scratch]
  · rw [readTraceFile_fresh hstocked d.path pos bytes true scratch f.scratch]
  · rename_i hsession hmeta
    have hnode : renderNode { d with pos } f.stack f.around k = renderNode d f.stack f.around k := rfl
    rw [hnode]
    cases hrender : renderNode d f.stack f.around k with
    | error e => rfl
    | ok out =>
      obtain ⟨r, k'⟩ := out
      cases r with
      | none => rfl
      | some r =>
        have htext : renderedText d f k = some r := by
          unfold renderedText
          split
          · rename_i htype
            exact absurd htype hsession
          · rename_i htype
            exact absurd htype hmeta
          · rw [hrender]
        simp only [bind, Except.bind,
          readRendered_fresh (hwhole f r htext) pos bytes scratch f.scratch]

theorem readFromNode_isOk {k : Nodes}
    (hstocked : k.fs.online = true → Stocked k.fs.superblock k.fs.inodes) (d : VfsFd)
    (bytes : UInt64) (f : ReadFrame) : (readFromNode d bytes f k).isOk = true := by
  have hrender : (renderNode d f.stack f.around k).isOk = true := by
    unfold renderNode
    simp only
    split
    case h_6 =>
      rw [isOk_bind fun _ => rfl]
      unfold builtinExecRenderPath
      split
      · rfl
      · split
        · rfl
        · rw [isOk_bind fun _ => rfl]
          exact renderPathImage_fits hstocked d.path f.stack
    all_goals rfl
  unfold readFromNode
  split
  · rw [isOk_bind fun _ => rfl]
    exact readTraceFile_fits hstocked _ _ _ _ _
  · rw [isOk_bind fun _ => rfl]
    exact readTraceFile_fits hstocked _ _ _ _ _
  · rw [isOk_bind fun _ => rfl]
    exact hrender

/-- What a read of the list would need. -/
theorem ReadsStored.listing {d : VfsFd} {k : Nodes} (h : ReadsStored d k)
    (hpath : d.path = cstr "/net/rx/queue") (hkind : pathKind d.path = some d.type)
    (hcount : k.devices.net.rxCount.toNat ≤ netfsQueueCap) : QueueListingFits k.devices.net := by
  have htype : d.type = .net := by
    rw [hpath, show pathKind (cstr "/net/rx/queue") = some .net by decide] at hkind
    exact (Option.some.inj hkind).symm
  have htext : renderedText d ⟨fun _ => 0, fun _ => 0, fun _ => 0⟩ k =
      some (renderNetRxQueue (UInt32.ofNat vfsScratchMax) k.devices.net) := by
    simp only [renderedText, htype, renderNode, hpath, netfsRenderPath]
    rfl
  exact (renderNetRxQueue_whole_iff hcount).mp (h.whole _ _ htext).1

/-- **Reads of the VFS**: in every state a boot and any steps reach, whatever the drive does,
    every byte a read of an open descriptor returns was rendered by that read, except from
    `/net/rx/queue` while the numbers in the list have too many digits.

    `hdisk` is the disk of the boot, with what it stores within the bounds of this kernel
    (`Stocked`) or to be formatted: the listings of the store are rendered from it. `h` is any run
    of calls, tasks and interrupts from that boot, over any drive, and `hd` any descriptor that is
    open then. On the right is one node and a number of digits. -/
theorem vfs_reads_stored (a : Ata)
    (hdisk : ¬ Formatted a.sector ∨ Stocked (diskSuperblock a.sector) (diskInodes a.sector))
    (m : Memory) (totalBytes : UInt64) {v : Vfs} (h : VfsReaches a m totalBytes v)
    {i : Fin vfsMaxFds} {d : VfsFd} (hd : v.fdTable i = some d) :
    ReadsStored d v.nodes ↔
      (d.path = cstr "/net/rx/queue" → QueueListingFits v.nodes.devices.net) := by
  have hsane := h.sane hdisk
  have hkind := hsane.typed i d hd
  constructor
  · intro hreads hpath
    exact hreads.listing hpath hkind hsane.rings.rxCount
  · intro hlist
    have hstocked := hsane.bounded.stocked
    refine ⟨fun f r hr => hsane.rendered_whole hr hkind hlist, ?_, fun pos bytes f =>
      readFromNode_isOk hstocked _ bytes f⟩
    exact readFromNode_fresh hstocked fun f r hr => (hsane.rendered_whole hr hkind hlist).1

/-- The first file opened after boot. -/
theorem vfs_reads_stored_tasks : ∃ d : VfsFd, d.path = cstr "/proc/tasks" ∧
    ReadsStored d (kernelBoot blankDrive sampleMemory 0).nodes := by
  have hpath : cstr "/proc/tasks" ≠ cstr "/net/rx/queue" := by decide
  refine ⟨⟨vfsORdonly, 0, .procTasks, cstr "/proc/tasks"⟩, rfl, ?_⟩
  exact (vfs_reads_stored blankDrive (Or.inl blankDrive_not_formatted) sampleMemory 0
    (v := (vfsOpen (cstr "/proc/tasks") vfsORdonly (kernelBoot blankDrive sampleMemory 0)).2)
    (.step (.open (cstr "/proc/tasks") vfsORdonly) (.boot) trivial rfl) (i := 0) rfl).mpr
    fun h => absurd h hpath

/-- Any number of packets of one payload, injected after boot. -/
theorem VfsReaches.injected (a : Ata) (m : Memory) (totalBytes : UInt64) (data : List UInt8)
    (hlen : data.length < 2 ^ 32) (n : Nat) : ∃ d, VfsReaches a m totalBytes
      { kernelBoot a m totalBytes with nodes := { (kernelBoot a m totalBytes).nodes with
        devices := d } } ∧
      Inbox ((List.range n).map fun i => ⟨i + 1, data.take netfsMaxPayload⟩) n d.net := by
  induction n with
  | zero => exact ⟨_, .boot, Inbox.init _⟩
  | succ n ih =>
    obtain ⟨d, hreaches, hinbox⟩ := ih
    have hsize : (UInt32.ofNat data.length).toNat = data.length := UInt32.toNat_ofNat_of_lt' hlen
    refine ⟨_, .step (.device (.net (.inject data))) hreaches trivial rfl, ?_⟩
    have hnext := hinbox.receive data (UInt32.ofNat data.length) hsize.le
    rw [hsize, List.take_length] at hnext
    rw [List.range_succ, List.map_append, List.map_singleton]
    exact hnext

/-- Thirty-two packets whose ids have 13 digits, each with a payload of 100 bytes. -/
theorem listedDigits_of_ids {n : Netfs} (hrings : Rings n) (hcount : n.rxCount.toNat = 32)
    (h : ∀ e ∈ rxEntries n, width e.1.toNat = 13 ∧ e.2.length = 100) : listedDigits n = 568 := by
  have hpacket : ∀ i ∈ List.range 32, width i + width (n.rxPacket (UInt32.ofNat i)).packetId.toNat +
      width (n.rxPacket (UInt32.ofNat i)).len.toNat = width i + 13 + 3 := fun i hi => by
    rw [rxEntries_eq hrings, hcount] at h
    obtain ⟨hid, hlen⟩ := h _ (List.mem_map_of_mem hi)
    rw [shownPacket, length_payload] at hlen
    rw [hlen, show width 100 = 3 by decide +kernel]
    exact congrArg (width i + · + 3) hid
  rw [listedDigits, hcount, List.map_congr_left hpacket]
  decide +kernel

/-- **A leak**: so many packets have come in that the list of the last 32 is too long. -/
theorem vfs_reads_leak : ∃ (v : Vfs) (d : VfsFd), VfsReaches blankDrive sampleMemory 0 v ∧
    v.fdTable 0 = some d ∧ d.path = cstr "/net/rx/queue" ∧ ¬ ReadsStored d v.nodes := by
  obtain ⟨d, hreaches, hinbox⟩ := VfsReaches.injected blankDrive sampleMemory 0
    (List.replicate 100 0) (by rw [List.length_replicate]; decide) (10 ^ 12 + 31)
  refine ⟨_, ⟨vfsORdonly, 0, .net, cstr "/net/rx/queue"⟩,
    .step (.open (cstr "/net/rx/queue") vfsORdonly) hreaches trivial rfl, rfl, rfl, fun hreads => ?_⟩
  have hcount : d.net.rxCount.toNat = 32 := by
    rw [hinbox.count, List.length_map, List.length_range]
    decide
  have hfits : QueueListingFits d.net := hreads.listing rfl (by decide) (hcount.le.trans (by decide))
  have hdigits : listedDigits d.net = 568 := listedDigits_of_ids hinbox.rings hcount fun e he => by
    -- the last 32 numbers are 10 ^ 12 and those behind it
    rw [hinbox.ring, newest_map, newest_map, newest, List.length_range] at he
    obtain ⟨_, hmem, rfl⟩ := List.mem_map.mp he
    obtain ⟨i, hi, rfl⟩ := List.mem_map.mp hmem
    obtain ⟨k, hk, rfl⟩ := List.mem_iff_getElem.mp hi
    have hqueue : netfsQueueCap = 32 := rfl
    rw [List.length_drop, List.length_range] at hk
    rw [List.getElem_drop, List.getElem_range]
    have hnumber : (UInt64.ofNat (10 ^ 12 + 31 - netfsQueueCap + k + 1)).toNat =
        10 ^ 12 + 31 - netfsQueueCap + k + 1 := UInt64.toNat_ofNat_of_lt' (by
      rw [show UInt64.size = 2 ^ 64 from rfl]
      omega)
    have hpayload : ((List.replicate 100 (0 : UInt8)).take netfsMaxPayload).length = 100 := by decide
    refine ⟨?_, hpayload⟩
    rw [Arrival.shown, hnumber, width, Nat.log_eq_of_pow_le_of_lt_pow (m := 12) (by omega) (by omega)]
  rw [QueueListingFits, hdigits, hcount] at hfits
  omega

end Proof
end BumbelBee
