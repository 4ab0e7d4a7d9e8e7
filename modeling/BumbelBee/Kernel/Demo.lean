import BumbelBee.Kernel.Netfs
import BumbelBee.Kernel.Sched
import BumbelBee.Kernel.Workload

/-!
# `demo record` and `demo replay` (`kernel/shell.c`, `kernel/sched.c`, `kernel/interrupts.c`)

The kernel while one of the two commands runs: the shell in slot 0, the tasks it schedules,
the recorder, the store, and the hardware interrupts that come in between. A step is one
call a task or the shell makes; an interrupt handler runs between two of them. The
statements of `trace_start_profile` are steps of their own: between two of them a handler
finds the recorder as no call leaves it behind.

What a step does to the task table does not depend on the recorder but for two questions the
code asks it: which task a replay expects next, and whether it has failed. They are the
arguments of `Sys.step`; what the step asks the recorder or the store to do is its `Effect`.

A task's turn ends with each of its calls, which is finer than the source needs, where a task runs
on until it yields; but an interrupt may come in between any two of them, and it is in this that two
runs of one workload differ. What a handler does is no more than its `trace_record` calls here, with
what it finds as an argument; `Kernel/Board.lean` has the handlers themselves.
-/

namespace BumbelBee
namespace Kernel

open Lib

/-! ## The shell's commands -/

/-- The statements of `trace_start_profile`, each of which names the variable it sets. -/
inductive StartStmt
  | recording
  | sessions
  | currentEvents
  | bufferPeak
  | recordStartTicks
  | currentProfile (profileId : UInt32)
deriving DecidableEq, Repr

def StartStmt.run (ticks : UInt64) : StartStmt → Trace → Trace
  | .recording, t => { t with recording := true }
  | .sessions, t => { t with stats := { t.stats with sessions := t.stats.sessions + 1 } }
  | .currentEvents, t => { t with currentEvents := 0 }
  | .bufferPeak, t => { t with bufferPeak := 0 }
  | .recordStartTicks, t => { t with recordStartTicks := pitTicks ticks t }
  | .currentProfile profileId, t => { t with currentProfile := profileId }

def startStmts (profileId : UInt32) : List StartStmt :=
  [.recording, .sessions, .currentEvents, .bufferPeak, .recordStartTicks, .currentProfile profileId]

/-- Without an interrupt between them they are `trace_start_profile`. -/
theorem startStmts_run (ticks : UInt64) (profileId : UInt32) (t : Trace) :
    (startStmts profileId).foldl (fun t stmt => stmt.run ticks t) t =
      traceStartProfile ticks profileId t := rfl

inductive ShellOp
  | prepareReplay
  | start (stmt : StartStmt)
  /-- `active_workloads++` and the `sched_spawn` behind it. -/
  | spawn (w : Workload)
  /-- The head of the loop in `run_workloads_until_idle`. -/
  | untilIdle
  | traceStop
  | replayBegin (sessionId : UInt32)
  | replayEnd
deriving DecidableEq, Repr

/-- `workload_run_profile` and `run_workloads_until_idle`. -/
def runProfile (profileId : UInt32) : List ShellOp :=
  (workloadRunProfile profileId).map .spawn ++ [.untilIdle]

/-- `demo record`, once the profile is known. -/
def demoRecord (profileId : UInt32) : List ShellOp :=
  .prepareReplay :: (startStmts profileId).map .start ++ (runProfile profileId ++ [.traceStop])

/-- `demo replay` once `trace_replay_begin` succeeded. -/
def demoReplayBegun (profileId : UInt32) : List ShellOp :=
  if profileId = workloadProfileNone then [.replayEnd]
  else .prepareReplay :: (runProfile profileId ++ [.replayEnd])

def demoReplay (sessionId : UInt32) : List ShellOp := [.replayBegin sessionId]

/-! ## One step of the scheduler's side -/

structure Sys where
  sched : Sched (List TaskOp)
  /-- `active_workloads`. -/
  activeWorkloads : UInt32
  /-- What is left of the shell's command. -/
  shell : List ShellOp

/-- A `trace_record` call of a task or of `switch_to`. -/
structure Request where
  pid : UInt32
  type : TraceEventType
  data0 : UInt64
  data1 : Datum
deriving DecidableEq, Repr

inductive Effect
  | none
  | record (r : Request)
  | start (stmt : StartStmt)
  | traceStop
  | replayBegin (sessionId : UInt32)
  | replayEnd
deriving DecidableEq, Repr

inductive Fault
  /-- `switch_to` was handed an index outside `tasks`, or of a slot that holds no task. -/
  | task (index : Int)
  | overrun (o : Overrun)
deriving DecidableEq, Repr

def Sys.setShell (shell : List ShellOp) (s : Sys) : Sys := { s with shell }

def Sys.setCode (code : List TaskOp) (s : Sys) : Sys := { s with sched := s.sched.setCode code }

/-- `switch_to(next)`, its `trace_record` included. -/
def Sys.switchTo (next : Int) (s : Sys) : Except Fault (Sys × Effect) :=
  if next < 0 ∨ next = s.sched.current.val then .ok (s, .none)
  else if h : next.toNat < maxTasks then
    if s.sched.taskVisible ⟨next.toNat, h⟩ then
      .ok ({ s with sched := s.sched.switchTo ⟨next.toNat, h⟩ },
        .record ⟨s.sched.pid ⟨next.toNat, h⟩, .sched, UInt64.ofNat s.sched.current.val,
          .word (UInt64.ofNat next.toNat)⟩)
    else .error (.task next)
  else .error (.task next)

/-- `sched_yield`. `expected` is what `trace_replay_expected_next_task` answers. -/
def Sys.yield (expected : Option Int) (s : Sys) : Except Fault (Sys × Effect) :=
  match expected with
  | some next => s.switchTo next
  | none =>
    match s.sched.findNextReady with
    | some next => s.switchTo next.val
    | none => .ok (s, .none)

/-- `task_exit`. -/
def Sys.taskExit (s : Sys) : Except Fault (Sys × Effect) :=
  let s := { s with sched := s.sched.retire [.halt] }
  match s.sched.findNextReady with
  | some next => s.switchTo next.val
  | none => .ok (s, .none)

/-- The next call of the task in the current slot. -/
def Sys.taskStep (expected : Option Int) (code : List TaskOp) (s : Sys) :
    Except Fault (Sys × Effect) :=
  match code with
  | [] => s.taskExit
  | .record type data0 data1 :: rest =>
    .ok (s.setCode rest, .record ⟨s.sched.currentPid, type, data0, data1⟩)
  | .yield :: rest => (s.setCode rest).yield expected
  | .finished :: rest =>
    .ok ({ s.setCode rest with activeWorkloads := s.activeWorkloads - 1 }, .none)
  | .halt :: _ => .ok (s, .none)

/-- `workload_has_active() || sched_has_ready()`. -/
def Sys.busy (s : Sys) : Bool := s.activeWorkloads != 0 || s.sched.hasReady

/-- The next call of the shell. `failed` is
    `trace_replay_active() && trace_replay_failed()`. -/
def Sys.shellStep (expected : Option Int) (failed : Bool) (s : Sys) :
    Except Fault (Sys × Effect) :=
  match s.shell with
  | [] => .ok (s, .none)
  | .prepareReplay :: rest =>
    .ok ({ s with sched := s.sched.prepareReplay, shell := rest }, .none)
  | .start stmt :: rest => .ok (s.setShell rest, .start stmt)
  | .spawn w :: rest =>
    .ok ({ sched := (s.sched.spawn w.code).2, activeWorkloads := s.activeWorkloads + 1
           shell := rest }, .none)
  | .untilIdle :: rest =>
    if s.busy && !failed then s.yield expected else .ok (s.setShell rest, .none)
  | .traceStop :: rest => .ok (s.setShell rest, .traceStop)
  | .replayBegin sessionId :: rest => .ok (s.setShell rest, .replayBegin sessionId)
  | .replayEnd :: rest => .ok (s.setShell rest, .replayEnd)

def Sys.step (expected : Option Int) (failed : Bool) (s : Sys) : Except Fault (Sys × Effect) :=
  if s.sched.current = 0 then s.shellStep expected failed
  else match s.sched.tasks s.sched.current with
    | none => .ok (s, .none)
    | some t => s.taskStep expected t.code

/-- The next call is `sched_yield`. -/
def Sys.yields (failed : Bool) (s : Sys) : Bool :=
  if s.sched.current = 0 then s.shell.head? == some .untilIdle && s.busy && !failed
  else (s.sched.tasks s.sched.current).any fun t => t.code.head? == some .yield

/-! ## The whole kernel -/

structure Machine where
  sys : Sys
  /-- `memory_used_bytes()`. -/
  memoryUsed : UInt64
  /-- The PIT's counter. -/
  ticks : UInt64
  trace : Trace
  fs : Fs

/-- A call of `trace_record`. -/
def Machine.record (type : TraceEventType) (pid : UInt32) (data0 data1 : UInt64) (m : Machine) :
    Machine :=
  { m with
    trace := (traceRecord m.ticks m.sys.sched.currentPid type.code pid data0 data1 m.trace).1 }

/-- The command goes on with the profile the session was recorded under. -/
def Machine.begin (sessionId : UInt32) (m : Machine) : Except Fault Machine :=
  match traceReplayBegin sessionId m.trace m.fs with
  | .error o => .error (.overrun o)
  | .ok (none, trace, fs) => .ok { m with sys := m.sys.setShell [], trace, fs }
  | .ok (some info, trace, fs) =>
    .ok { m with sys := m.sys.setShell (demoReplayBegun info.profileId), trace, fs }

def Machine.perform (e : Effect) (m : Machine) : Except Fault Machine :=
  match e with
  | .none => .ok m
  | .record r => .ok (m.record r.type r.pid r.data0 (r.data1.value m.memoryUsed))
  | .start stmt => .ok { m with trace := stmt.run m.ticks m.trace }
  | .traceStop =>
    match traceStop m.ticks m.trace m.fs with
    | (trace, fs, none) => .ok { m with trace, fs }
    | (_, _, some o) => .error (.overrun o)
  | .replayBegin sessionId => m.begin sessionId
  | .replayEnd => .ok { m with trace := traceReplayEnd m.trace }

/-- `trace_replay_active() && trace_replay_failed()`. -/
def Machine.failed (m : Machine) : Bool := m.trace.replay.active && m.trace.replay.failed

/-- One call of the shell or of the task that runs. -/
def Machine.step (m : Machine) : Except Fault Machine :=
  match m.sys.step (traceReplayExpectedNextTask m.trace) m.failed with
  | .error f => .error f
  | .ok (sys, e) => { m with sys }.perform e

/-! ## Interrupts -/

/-- What a timer interrupt that flushes `/net/tx` does: for each packet its length and, with
    loopback on, the id its copy is received under; and the bytes in all. -/
structure NetFlush where
  packets : List (UInt64 × Option UInt64)
  bytes : UInt64
deriving DecidableEq, Repr

/-- A hardware interrupt, with what its handler finds: a timer tick, at which the send queue
    is flushed or not; a scancode that is traced, with its character, or not; any other line. -/
inductive Interrupt
  | timer (flush : Option NetFlush)
  | keyboard (key : Option (UInt64 × UInt64))
  | other (line : Fin 14)
deriving DecidableEq, Repr

def Interrupt.vector : Interrupt → UInt64
  | .timer _ => 32
  | .keyboard _ => 33
  | .other line => 34 + UInt64.ofNat line.val

/-- `transmit_now`, and `enqueue_rx_packet` when the packet is looped back. -/
def Machine.transmit (packet : UInt64 × Option UInt64) (m : Machine) : Machine :=
  let m := m.record .net 0 netEventTx packet.1
  match packet.2 with
  | none => m
  | some packetId => m.record .net 0 netEventRx packetId

/-- `flush_tx_queue`, with the `power_note_net_flushed` behind it. -/
def Machine.flush (f : NetFlush) (m : Machine) : Machine :=
  let m := f.packets.foldl (fun m packet => m.transmit packet) m
  if f.packets = [] then m else m.record .power 0 (UInt64.ofNat f.packets.length) f.bytes

/-- `isr_dispatch`: a replay lets no hardware interrupt in. -/
def Machine.interrupt (i : Interrupt) (m : Machine) : Machine :=
  if m.trace.replay.active then m
  else
    let m := m.record .irq 0 i.vector 0
    match i with
    | .timer flush =>
      let m := { m with ticks := m.ticks + 1 }
      match flush with
      | none => m
      | some f => m.flush f
    | .keyboard (some (ch, scancode)) => m.record .keyboard 0 ch scancode
    | .keyboard none => m
    | .other _ => m

/-! ## Runs -/

/-- What happens next: the running task makes its next call, or an interrupt comes in. -/
inductive Turn
  | step
  | interrupt (i : Interrupt)
deriving DecidableEq, Repr

def Machine.turn (t : Turn) (m : Machine) : Except Fault Machine :=
  match t with
  | .step => m.step
  | .interrupt i => .ok (m.interrupt i)

def Machine.run : List Turn → Machine → Except Fault Machine
  | [], m => .ok m
  | t :: ts, m =>
    match m.turn t with
    | .error f => .error f
    | .ok m => m.run ts

/-- A command is typed at the shell's prompt. -/
def Machine.type (command : List ShellOp) (m : Machine) : Machine :=
  { m with sys := m.sys.setShell command }

end Kernel
end BumbelBee
