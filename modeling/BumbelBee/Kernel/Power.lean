import BumbelBee.Kernel.Devices

/-!
# The power manager (`kernel/power.c`)

`power_tick_hook` stands with `netfs_power_tick`, which it calls, in `Kernel.Netfs`.

The counters are `u64`s and go round; nothing in the code stops them, and nothing here does. The
queue of keys is kept with the power manager, as in the source, and not with the keyboard, whose
buffer a flush moves them into.
-/

namespace BumbelBee
namespace Kernel

open Lib

/-! ## The keyboard's buffer (`kernel/keyboard.c`) -/

def keyboardInit (d : Devices) : Devices :=
  { d with keyboard := { d.keyboard with
      head := 0
      tail := 0
      leftShift := false
      rightShift := false
      extendedPrefix := false } }

def keyboardBufferPut (ch : UInt8) (k : Keyboard) : Keyboard :=
  { k with
    buffer := Function.update k.buffer (k.head.toNat % keyboardBufferCap) ch
    head := k.head + 1 }

/-- `keyboard_getchar`: -1 for an empty buffer. A `char` is signed. -/
def keyboardGetchar (k : Keyboard) : Int × Keyboard :=
  if k.head = k.tail then (-1, k)
  else ((k.buffer (k.tail.toNat % keyboardBufferCap)).toInt8.toInt, { k with tail := k.tail + 1 })

/-! ## Modes -/

def powerInit (d : Devices) : Devices :=
  { d with power := {
      mode := powerModeBalanced
      keyboardQ := fun _ => 0
      keyboardHead := 0
      keyboardCount := 0
      ticksSinceFlush := 0
      stats := { PowerStats.zero with mode := powerModeBalanced } } }

def powerSetMode (mode : UInt32) (d : Devices) : Devices :=
  if mode > powerModeEnergySaver then d
  else
    let d := { d with power := { d.power with
      mode
      stats := { d.power.stats with mode, modeSwitches := d.power.stats.modeSwitches + 1 } } }
    d.record .power 0 mode.toUInt64 d.power.stats.modeSwitches

def powerKeyboardFlushInterval (p : Power) : UInt32 :=
  if p.mode = powerModePerformance then 1
  else if p.mode = powerModeBalanced then 3
  else if p.mode = powerModeEnergySaver then 12
  else 3

def powerNetBatchLimit (p : Power) : UInt32 :=
  if p.mode = powerModePerformance then 1
  else if p.mode = powerModeBalanced then 4
  else if p.mode = powerModeEnergySaver then 16
  else 4

/-! ## Keys -/

/-- The loop of `keyboard_flush_now`, `n` times round. -/
def keyboardDrain : Nat → Devices → Devices
  | 0, d => d
  | n + 1, d => keyboardDrain n { d with
      keyboard := keyboardBufferPut (d.power.keyboardQ d.power.keyboardHead.toNat) d.keyboard
      power := { d.power with
        keyboardHead := (d.power.keyboardHead + 1) % UInt32.ofNat powerKeyboardQcap
        keyboardCount := d.power.keyboardCount - 1 } }

def keyboardFlushNow (d : Devices) : Devices :=
  if d.power.keyboardCount = 0 then d
  else
    let d := { d with power := { d.power with stats := { d.power.stats with
      wakeups := d.power.stats.wakeups + 1
      keyboardFlushes := d.power.stats.keyboardFlushes + 1 } } }
    let d := keyboardDrain d.power.keyboardCount.toNat d
    { d with power := { d.power with stats := { d.power.stats with pendingKeys := 0 } } }

def powerKeyboardChar (ch : UInt8) (d : Devices) : Devices :=
  let p := { d.power with stats := { d.power.stats with
    keyboardEvents := d.power.stats.keyboardEvents + 1 } }
  if p.mode = powerModePerformance ∨ ¬ p.keyboardCount < UInt32.ofNat powerKeyboardQcap then
    { d with
      power := { p with stats := { p.stats with wakeups := p.stats.wakeups + 1 } }
      keyboard := keyboardBufferPut ch d.keyboard }
  else
    let tail := (p.keyboardHead + p.keyboardCount) % UInt32.ofNat powerKeyboardQcap
    { d with power := { p with
        keyboardQ := Function.update p.keyboardQ tail.toNat ch
        keyboardCount := p.keyboardCount + 1
        stats := { p.stats with
          pendingKeys := p.keyboardCount + 1
          keyboardCoalesced := p.stats.keyboardCoalesced + 1 } } }

/-! ## What the network driver reports -/

def powerNoteNetEnqueued (bytes : UInt32) (d : Devices) : Devices :=
  { d with power := { d.power with stats := { d.power.stats with
      netTxEnqueued := d.power.stats.netTxEnqueued + 1
      pendingTxPackets := d.power.stats.pendingTxPackets + 1
      pendingTxBytes := d.power.stats.pendingTxBytes + bytes } } }

def powerNoteNetFlushed (packets bytes : UInt32) (d : Devices) : Devices :=
  if packets = 0 then d
  else
    let stats := { d.power.stats with
      wakeups := d.power.stats.wakeups + 1
      netFlushes := d.power.stats.netFlushes + 1
      netTxFlushed := d.power.stats.netTxFlushed + packets.toUInt64
      pendingTxPackets := if d.power.stats.pendingTxPackets ≥ packets then
        d.power.stats.pendingTxPackets - packets else 0
      pendingTxBytes := if d.power.stats.pendingTxBytes ≥ bytes then
        d.power.stats.pendingTxBytes - bytes else 0 }
    { d with power := { d.power with stats } }.record .power 0 packets.toUInt64 bytes.toUInt64

def powerSetPendingNet (packets bytes : UInt32) (d : Devices) : Devices :=
  { d with power := { d.power with stats := { d.power.stats with
      pendingTxPackets := packets
      pendingTxBytes := bytes } } }

/-! ## What the shell shows -/

def powerGetStats (d : Devices) : PowerStats :=
  { d.power.stats with mode := d.power.mode, pendingKeys := d.power.keyboardCount }

/-- The per cent of `wakeups saved` in `shell_power_status` (`kernel/shell.c`). -/
def shellPowerSaved (stats : PowerStats) : UInt64 :=
  let total := stats.keyboardEvents + stats.netTxEnqueued
  if total ≠ 0 ∧ total ≥ stats.wakeups then (total - stats.wakeups) * 100 / total else 0

end Kernel
end BumbelBee
