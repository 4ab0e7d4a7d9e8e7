import BumbelBee.Kernel.Power

/-!
# Packets as files (`kernel/netfs.c`)

A write to `/net/tx` is sent at once in performance mode and queued in the others, until the
queue has reached the mode's batch limit or the power manager's tick comes round.

A flush empties the queue from its head with a loop that has no bound of its own; `flushLoop` is
given the count it starts with. What is on the line is `sent`, oldest first, and with loopback on
every packet is received again when it is sent, not when it is written.
-/

namespace BumbelBee
namespace Kernel

open Lib

def netEventTx : UInt64 := 1
def netEventRx : UInt64 := 2
def netEventCfg : UInt64 := 3

def netfsInit (d : Devices) : Devices :=
  { d with net := {
      rxQueue := fun _ => NetPacket.zero
      txQueue := fun _ => NetPacket.zero
      rxHead := 0
      rxCount := 0
      txHead := 0
      txCount := 0
      txPendingBytes := 0
      nextPacketId := 1
      stats := { NetfsStats.zero with loopbackEnabled := 1 } } }

/-- `if (len > NETFS_MAX_PAYLOAD) len = NETFS_MAX_PAYLOAD;`. -/
def clampLen (len : UInt32) : UInt32 :=
  if len > UInt32.ofNat netfsMaxPayload then UInt32.ofNat netfsMaxPayload else len

theorem clampLen_toNat (len : UInt32) : (clampLen len).toNat = min len.toNat netfsMaxPayload := by
  have hmax : (UInt32.ofNat netfsMaxPayload).toNat = netfsMaxPayload := rfl
  unfold clampLen
  split
  · rename_i h
    rw [gt_iff_lt, UInt32.lt_iff_toNat_lt, hmax] at h
    rw [hmax]
    omega
  · rename_i h
    rw [gt_iff_lt, UInt32.lt_iff_toNat_lt, hmax] at h
    omega

theorem clampLen_le (len : UInt32) : (clampLen len).toNat ≤ netfsMaxPayload := by
  rw [clampLen_toNat]
  exact Nat.min_le_right _ _

/-- `pkt = &queue[slot]`, filled in by the two `enqueue` functions. -/
def NetPacket.fill (packetId ticks : UInt64) (data : List UInt8) (len : UInt32)
    (fits : len.toNat ≤ netfsMaxPayload) (p : NetPacket) : NetPacket where
  packetId := packetId
  ticks := ticks
  len := len
  data := if len = 0 then p.data else p.data.copyFront (data.take len.toNat)
  fits := fits

/-- A full ring loses its oldest packet. -/
def Netfs.makeRoom (n : Netfs) : Netfs :=
  if n.rxCount = UInt32.ofNat netfsQueueCap then
    { n with
      rxHead := (n.rxHead + 1) % UInt32.ofNat netfsQueueCap
      rxCount := n.rxCount - 1
      stats := { n.stats with droppedPackets := n.stats.droppedPackets + 1 } }
  else n

def enqueueRxPacket (data : List UInt8) (len : UInt32) (d : Devices) : Devices :=
  let n := d.net.makeRoom
  let slot := ((n.rxHead + n.rxCount) % UInt32.ofNat netfsQueueCap).toNat
  let pkt := (n.rxQueue slot).fill n.nextPacketId (pitTicks d.ticks d.trace) data (clampLen len)
    (clampLen_le len)
  let d := { d with net := { n with
    rxQueue := Function.update n.rxQueue slot pkt
    rxCount := n.rxCount + 1
    nextPacketId := n.nextPacketId + 1
    stats := { n.stats with
      rxPackets := n.stats.rxPackets + 1
      rxBytes := n.stats.rxBytes + (clampLen len).toUInt64
      queueDepth := n.rxCount + 1
      lastPacketId := pkt.packetId } } }
  d.record .net 0 netEventRx pkt.packetId

def transmitNow (data : List UInt8) (len : UInt32) (d : Devices) : Devices :=
  let d := { d with
    net := { d.net with stats := { d.net.stats with
      txPackets := d.net.stats.txPackets + 1
      txBytes := d.net.stats.txBytes + len.toUInt64 } }
    sent := d.sent ++ [data.take len.toNat] }
  let d := d.record .net 0 netEventTx len.toUInt64
  if d.net.stats.loopbackEnabled != 0 then enqueueRxPacket data len d else d

/-- `none` is -1: the queue is full. -/
def enqueueTxPacket (data : List UInt8) (len : UInt32) (d : Devices) : Option Devices :=
  if d.net.txCount = UInt32.ofNat netfsQueueCap then none
  else
    let n := d.net
    let slot := ((n.txHead + n.txCount) % UInt32.ofNat netfsQueueCap).toNat
    let d := { d with net := { n with
      txQueue := Function.update n.txQueue slot
        ((n.txQueue slot).fill n.nextPacketId (pitTicks d.ticks d.trace) data (clampLen len)
          (clampLen_le len))
      txCount := n.txCount + 1
      txPendingBytes := n.txPendingBytes + clampLen len
      nextPacketId := n.nextPacketId + 1 } }
    let d := powerNoteNetEnqueued (clampLen len) d
    some (powerSetPendingNet d.net.txCount d.net.txPendingBytes d)

/-- The body of the loop in `flush_tx_queue`. -/
def flushOne (flushed : UInt32 × UInt32) (d : Devices) : (UInt32 × UInt32) × Devices :=
  let pkt := d.net.txQueue d.net.txHead.toNat
  let d := transmitNow pkt.data.bytes pkt.len d
  ((flushed.1 + 1, flushed.2 + pkt.len),
    { d with net := { d.net with
        txHead := (d.net.txHead + 1) % UInt32.ofNat netfsQueueCap
        txCount := d.net.txCount - 1 } })

/-- The loop, `n` times round, with `flushed_packets` and `flushed_bytes`. -/
def flushLoop : Nat → UInt32 × UInt32 → Devices → (UInt32 × UInt32) × Devices
  | 0, flushed, d => (flushed, d)
  | n + 1, flushed, d =>
    let (flushed, d) := flushOne flushed d
    flushLoop n flushed d

/-- What stands behind the loop. -/
def flushEnd (flushed : UInt32 × UInt32) (d : Devices) : Devices :=
  let d := { d with net := { d.net with txPendingBytes := 0 } }
  powerNoteNetFlushed flushed.1 flushed.2
    (powerSetPendingNet d.net.txCount d.net.txPendingBytes d)

/-- `while (tx_count)`: no call in the body but the last statement changes the count. -/
def flushTxQueue (d : Devices) : Devices :=
  let (flushed, d) := flushLoop d.net.txCount.toNat (0, 0) d
  flushEnd flushed d

def netfsFlushTx (d : Devices) : Devices := flushTxQueue d

/-- The `/net/tx` branch of `netfs_write_path`, in the modes that queue. -/
def netfsQueueTx (data : List UInt8) (d : Devices) : Int × Devices :=
  let len := UInt32.ofNat data.length
  let queued :=
    match enqueueTxPacket data len d with
    | some d => (some d, d)
    | none =>
      let d := flushTxQueue d
      (enqueueTxPacket data len d, d)
  match queued with
  | (none, d) => (-1, d)
  | (some d, _) =>
    (0, if d.net.txCount ≥ powerNetBatchLimit d.power then flushTxQueue d else d)

/-- The C string's first byte, its terminator if it has none. -/
def firstChar (s : List UInt8) : UInt8 := s.headD 0

def netfsWritePath (path data : List UInt8) (d : Devices) : Int × Devices :=
  let len := UInt32.ofNat data.length
  if path = cstr "/net/config/loopback" then
    if firstChar data = 0x30 ∨ firstChar data = 0x31 then
      let d := { d with net := { d.net with stats := { d.net.stats with
        loopbackEnabled := if firstChar data = 0x30 then 0 else 1 } } }
      (0, d.record .net 0 netEventCfg d.net.stats.loopbackEnabled.toUInt64)
    else (-1, d)
  else if path = cstr "/net/rx/inject" then (0, enqueueRxPacket data len d)
  else if path = cstr "/net/tx" then
    if d.power.mode = powerModePerformance then (0, transmitNow data len d)
    else netfsQueueTx data d
  else (-1, d)

def netfsPowerTick (d : Devices) : Devices :=
  if d.power.mode ≠ powerModePerformance ∧ d.net.txCount ≠ 0 then flushTxQueue d else d

/-- `power_tick_hook` (`kernel/power.c`). -/
def powerTickHook (d : Devices) : Devices :=
  let d := { d with power := { d.power with ticksSinceFlush := d.power.ticksSinceFlush + 1 } }
  if d.power.ticksSinceFlush ≥ powerKeyboardFlushInterval d.power then
    let d := netfsPowerTick (keyboardFlushNow d)
    { d with power := { d.power with ticksSinceFlush := 0 } }
  else d

end Kernel
end BumbelBee
