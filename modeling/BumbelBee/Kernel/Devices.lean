import BumbelBee.Kernel.Trace

/-!
# The drivers' statics (`kernel/keyboard.c`, `kernel/power.c`, `kernel/netfs.c`)

The three drivers call each other: a key goes through the power manager into the keyboard's
buffer, the power manager's tick flushes the send queue, a flush is counted by the power
manager. So their functions share one state, which holds the statics of each and what they
ask of the rest of the kernel: the recorder, the PIT's counter and the running task's pid.

`sent` is not a variable of the kernel. It is the line the packets go out on, which nothing under
`src/` reads back, and it is there to say what has been sent.
-/

namespace BumbelBee
namespace Kernel

open Lib

/-! ## Keyboard -/

def keyboardBufferCap : Nat := 256

structure Keyboard where
  /-- `char buffer[256]`. -/
  buffer : Nat → UInt8
  head : UInt32
  tail : UInt32
  leftShift : Bool
  rightShift : Bool
  extendedPrefix : Bool

/-! ## Power -/

def powerKeyboardQcap : Nat := 256

def powerModePerformance : UInt32 := 0
def powerModeBalanced : UInt32 := 1
def powerModeEnergySaver : UInt32 := 2

structure PowerStats where
  mode : UInt32
  pendingKeys : UInt32
  pendingTxPackets : UInt32
  pendingTxBytes : UInt32
  wakeups : UInt64
  keyboardEvents : UInt64
  keyboardCoalesced : UInt64
  keyboardFlushes : UInt64
  netTxEnqueued : UInt64
  netTxFlushed : UInt64
  netFlushes : UInt64
  modeSwitches : UInt64
deriving DecidableEq, Repr

def PowerStats.zero : PowerStats := ⟨0, 0, 0, 0, 0, 0, 0, 0, 0, 0, 0, 0⟩

/-- `power_state`. -/
structure Power where
  mode : UInt32
  /-- `keyboard_q[POWER_KEYBOARD_QCAP]`. -/
  keyboardQ : Nat → UInt8
  keyboardHead : UInt32
  keyboardCount : UInt32
  ticksSinceFlush : UInt32
  stats : PowerStats

/-! ## Network -/

def netfsMaxPayload : Nat := 256
def netfsQueueCap : Nat := 32

/-- A packet in a queue: its payload lies inside its data. -/
structure NetPacket where
  packetId : UInt64
  ticks : UInt64
  len : UInt32
  data : Block netfsMaxPayload
  fits : len.toNat ≤ netfsMaxPayload
deriving DecidableEq

def NetPacket.zero : NetPacket := ⟨0, 0, 0, Block.zero netfsMaxPayload, Nat.zero_le _⟩

/-- The bytes of the packet that carry its payload. -/
def NetPacket.payload (p : NetPacket) : List UInt8 := p.data.bytes.take p.len.toNat

structure NetfsStats where
  txPackets : UInt64
  txBytes : UInt64
  rxPackets : UInt64
  rxBytes : UInt64
  droppedPackets : UInt64
  queueDepth : UInt32
  loopbackEnabled : UInt32
  lastPacketId : UInt64
deriving DecidableEq, Repr

def NetfsStats.zero : NetfsStats := ⟨0, 0, 0, 0, 0, 0, 0, 0⟩

structure Netfs where
  /-- `rx_queue[NETFS_QUEUE_CAP]`. -/
  rxQueue : Nat → NetPacket
  /-- `tx_queue[NETFS_QUEUE_CAP]`. -/
  txQueue : Nat → NetPacket
  rxHead : UInt32
  rxCount : UInt32
  txHead : UInt32
  txCount : UInt32
  txPendingBytes : UInt32
  nextPacketId : UInt64
  stats : NetfsStats

/-! ## All of them -/

structure Devices where
  keyboard : Keyboard
  power : Power
  net : Netfs
  trace : Trace
  /-- The PIT's counter. -/
  ticks : UInt64
  /-- The pid of the running task. -/
  currentPid : UInt32
  /-- What `transmit_now` has been handed so far, oldest first. No code reads it. -/
  sent : List (List UInt8)

/-- The statics as the kernel is loaded. -/
def Devices.loaded : Devices where
  keyboard := ⟨fun _ => 0, 0, 0, false, false, false⟩
  power := ⟨0, fun _ => 0, 0, 0, 0, PowerStats.zero⟩
  net := ⟨fun _ => NetPacket.zero, fun _ => NetPacket.zero, 0, 0, 0, 0, 0, 0, NetfsStats.zero⟩
  trace := Trace.loaded
  ticks := 0
  currentPid := 1
  sent := []

/-- A `trace_record` call of a driver. -/
def Devices.record (type : TraceEventType) (pid : UInt32) (data0 data1 : UInt64) (d : Devices) :
    Devices :=
  { d with trace := (traceRecord d.ticks d.currentPid type.code pid data0 data1 d.trace).1 }

end Kernel
end BumbelBee
