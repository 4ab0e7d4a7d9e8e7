import BumbelBee.Kernel.Demo
import BumbelBee.Kernel.Isr

/-!
# The kernel with its drivers (`kernel/interrupts.c`)

`Machine` takes what an interrupt's handler finds as part of the interrupt. Here it is found:
the machine stands beside the drivers' statics, and the handlers are the drivers' own.

The two are kept apart since most of what is proved of a recording is about any interrupt, whatever
the drivers would have made of it. Who stored an event is asked of the drivers too, and for that the
run carries `origins` along: a list beside the recorder's buffer, which no function of the kernel
reads.
-/

namespace BumbelBee
namespace Kernel

open Lib

structure Board where
  machine : Machine
  keyboard : Keyboard
  power : Power
  net : Netfs

/-- What the drivers see of it. -/
def Board.devices (b : Board) : Devices where
  keyboard := b.keyboard
  power := b.power
  net := b.net
  trace := b.machine.trace
  ticks := b.machine.ticks
  currentPid := b.machine.sys.sched.currentPid
  sent := []

/-- A hardware interrupt comes in. -/
def Board.irq (i : Irq) (b : Board) : Board :=
  let d := isrDispatch i b.devices
  { machine := { b.machine with trace := d.trace, ticks := d.ticks }
    keyboard := d.keyboard
    power := d.power
    net := d.net }

inductive Move
  | step
  | irq (i : Irq)
deriving DecidableEq, Repr

/-- The running task makes its next call, or an interrupt comes in. -/
def Board.move (m : Move) (b : Board) : Except Fault Board :=
  match m with
  | .step =>
    match b.machine.step with
    | .error f => .error f
    | .ok machine => .ok { b with machine }
  | .irq i => .ok (b.irq i)

/-! ## Who stored what -/

/-- Whose `trace_record` call stored an event. -/
inductive Origin
  | task
  | interrupt
deriving DecidableEq, Repr

def Move.origin : Move → Origin
  | .step => .task
  | .irq _ => .interrupt

/-- The kernel, and for each event in the recorder's buffer who stored it. -/
structure Watched where
  board : Board
  origins : List Origin

/-- The origins of `after` events, when there were `before`: those gone are forgotten, those
    come are the mover's. -/
def watch (o : Origin) (before after : Nat) (origins : List Origin) : List Origin :=
  origins.take after ++ List.replicate (after - before) o

def Watched.move (m : Move) (w : Watched) : Except Fault Watched :=
  match w.board.move m with
  | .error f => .error f
  | .ok board => .ok ⟨board, watch m.origin w.board.machine.trace.currentEvents.toNat
      board.machine.trace.currentEvents.toNat w.origins⟩

def Watched.run : List Move → Watched → Except Fault Watched
  | [], w => .ok w
  | m :: ms, w =>
    match w.move m with
    | .error f => .error f
    | .ok w => w.run ms

/-- A command is typed at the shell's prompt: what is in the buffer came from before it. -/
def Watched.type (command : List ShellOp) (b : Board) : Watched where
  board := { b with machine := b.machine.type command }
  origins := List.replicate b.machine.trace.currentEvents.toNat .task

end Kernel
end BumbelBee
