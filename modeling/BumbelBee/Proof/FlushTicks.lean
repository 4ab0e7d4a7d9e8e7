import BumbelBee.Proof.Keys

/-!
# What a flush tick leaves behind

`power_tick_hook` empties two queues, each by a function that looks at the mode for itself:
`keyboard_flush_now` does not, `netfs_power_tick` does nothing in performance mode. Nothing is
assumed of the state a tick finds, so a tick may also come in the middle of a driver's call;
`flush_ticks_iff` says for which runs all flush ticks leave both queues empty.

The two queues are emptied by calls that look alike and are not: the keyboard's is a loop, the
network's asks the mode first. In performance mode nothing is queued by a write, so a packet can be
there only from before the mode was switched; and as nothing else sends it, it stays until the mode
is switched back. The documentation says otherwise, of the switch and of the tick.
-/

namespace BumbelBee
namespace Proof

open Lib Kernel

variable {d d' : Devices}

/-! ## Runs -/

/-- A call to a driver, or an interrupt. -/
inductive DriverOp
  | call (op : KeyOp)
  | irq (i : Irq)
deriving DecidableEq

def DriverOp.run : DriverOp → Devices → Devices
  | .call op, d => op.run d
  | .irq i, d => isrDispatch i d

/-- The state in which `power_tick_hook` is called, if it is. -/
def DriverOp.hook : DriverOp → Devices → List Devices
  | .call (.net .tick), d => [d]
  | .irq .timer, d =>
    if d.trace.replay.active then []
    else [{ d.record .irq 0 Irq.timer.vector 0 with ticks := d.ticks + 1 }]
  | _, _ => []

/-- Every call of `power_tick_hook` in a run. -/
def hooks : List DriverOp → Devices → List Devices := outputs DriverOp.run DriverOp.hook

/-! ## The two queues

Each queue has a lemma that its flush empties it, and the two are independent: the keys go to the
keyboard's buffer, the packets to the line.
-/

theorem makeRoom_txCount (n : Netfs) : n.makeRoom.txCount = n.txCount := by
  rw [Netfs.makeRoom]
  split <;> rfl

theorem transmitNow_kept (data : List UInt8) (len : UInt32) (d : Devices) :
    (transmitNow data len d).net.txCount = d.net.txCount ∧
      (transmitNow data len d).power = d.power := by
  rw [transmitNow]
  split
  · exact ⟨makeRoom_txCount _, rfl⟩
  · exact ⟨rfl, rfl⟩

/-- Whatever the queue is like, the loop empties it. -/
theorem flushLoop_empties : ∀ (n : Nat) (flushed : UInt32 × UInt32) {d : Devices},
    d.net.txCount.toNat = n → (flushLoop n flushed d).2.net.txCount = 0 ∧
      (flushLoop n flushed d).2.power = d.power
  | 0, _, _, hn => ⟨UInt32.toNat_inj.mp hn, rfl⟩
  | n + 1, flushed, d, hn => by
    have hkept := transmitNow_kept (d.net.txQueue d.net.txHead.toNat).data.bytes
      (d.net.txQueue d.net.txHead.toNat).len d
    have hcount : (flushOne flushed d).2.net.txCount = d.net.txCount - 1 :=
      congrArg (· - 1) hkept.1
    have hleft : (flushOne flushed d).2.net.txCount.toNat = n := by
      rw [hcount, pred_toNat (fun h0 => by rw [h0] at hn; exact absurd hn (by simp)), hn]
      rfl
    obtain ⟨hempty, hpower⟩ := flushLoop_empties n (flushOne flushed d).1 hleft
    exact ⟨hempty, hpower.trans hkept.2⟩

theorem flushTxQueue_empties (d : Devices) : (flushTxQueue d).net.txCount = 0 ∧
    (flushTxQueue d).power.keyboardCount = d.power.keyboardCount := by
  have hrun : flushTxQueue d = flushEnd (flushLoop d.net.txCount.toNat (0, 0) d).1
      (flushLoop d.net.txCount.toNat (0, 0) d).2 := rfl
  obtain ⟨hempty, hpower⟩ := flushLoop_empties d.net.txCount.toNat (0, 0) (d := d) rfl
  rw [hrun, (flushEnd_kept _ _).1, flushEnd_power hempty, hpower]
  exact ⟨hempty, rfl⟩

theorem keyboardFlushNow_count (d : Devices) : (keyboardFlushNow d).power.keyboardCount = 0 := by
  rcases keyboardFlushNow_power d with ⟨hempty, hrun⟩ | ⟨-, head, hpower, -⟩
  · rw [hrun, hempty]
  · rw [hpower]

/-! ## One tick

A tick counts up, and at the interval it resets the count and flushes. `netfs_power_tick` asks for
the mode once more, and in performance mode returns without a look at the queue.
-/

/-- The tick that makes up the interval. -/
def reachesInterval (d : Devices) : Prop :=
  d.power.ticksSinceFlush + 1 ≥ powerKeyboardFlushInterval d.power

/-- What a call of `power_tick_hook` in `d` leaves behind. -/
structure LeavesNothing (d : Devices) : Prop where
  ticks : (powerTickHook d).power.ticksSinceFlush < 12
  keys : reachesInterval d → (powerTickHook d).power.keyboardCount = 0
  packets : reachesInterval d → (powerTickHook d).net.txCount = 0

theorem powerKeyboardFlushInterval_le (p : Power) : (powerKeyboardFlushInterval p).toNat ≤ 12 := by
  rw [powerKeyboardFlushInterval]
  split
  · decide
  · split
    · decide
    · split <;> decide

/-- **A flush tick**: keys always go, packets do not in performance mode. -/
theorem powerTickHook_due (h : reachesInterval d) :
    (powerTickHook d).power.ticksSinceFlush = 0 ∧ (powerTickHook d).power.keyboardCount = 0 ∧
      (powerTickHook d).net.txCount =
        if d.power.mode = powerModePerformance then d.net.txCount else 0 := by
  let d₀ := { d with power := { d.power with ticksSinceFlush := d.power.ticksSinceFlush + 1 } }
  have hkept := keyboardFlushNow_kept d₀
  have hkeys := keyboardFlushNow_count d₀
  have hrun : powerTickHook d = { netfsPowerTick (keyboardFlushNow d₀) with
      power := { (netfsPowerTick (keyboardFlushNow d₀)).power with ticksSinceFlush := 0 } } :=
    if_pos h
  have hmode : (keyboardFlushNow d₀).power.mode = d.power.mode := hkept.mode
  have hnet : (keyboardFlushNow d₀).net = d.net := hkept.net
  rw [hrun]
  refine ⟨rfl, ?_⟩
  show (netfsPowerTick (keyboardFlushNow d₀)).power.keyboardCount = 0 ∧
    (netfsPowerTick (keyboardFlushNow d₀)).net.txCount = _
  rw [netfsPowerTick, hmode, hnet]
  by_cases hperformance : d.power.mode = powerModePerformance
  · rw [if_neg fun hflush => hflush.1 hperformance, if_pos hperformance, hnet]
    exact ⟨hkeys, rfl⟩
  · rw [if_neg hperformance]
    by_cases hempty : d.net.txCount = 0
    · rw [if_neg fun hflush => hflush.2 hempty, hnet]
      exact ⟨hkeys, hempty⟩
    · rw [if_pos ⟨hperformance, hempty⟩]
      exact ⟨(flushTxQueue_empties _).2.trans hkeys, (flushTxQueue_empties _).1⟩

/-- The count of ticks never gets to twelve. -/
theorem powerTickHook_ticks (d : Devices) : (powerTickHook d).power.ticksSinceFlush < 12 := by
  by_cases hdue : reachesInterval d
  · rw [(powerTickHook_due hdue).1]
    decide
  · have hrun : powerTickHook d = { d with power := { d.power with
        ticksSinceFlush := d.power.ticksSinceFlush + 1 } } := if_neg hdue
    have hle := powerKeyboardFlushInterval_le d.power
    rw [hrun, UInt32.lt_iff_toNat_lt]
    rw [reachesInterval, ge_iff_le, UInt32.not_le, UInt32.lt_iff_toNat_lt] at hdue
    exact Nat.lt_of_lt_of_le hdue hle

/-- **One tick** leaves nothing exactly when it is not a flush tick that finds packets in
    performance mode. -/
theorem leavesNothing_iff (d : Devices) : LeavesNothing d ↔
    (reachesInterval d → d.power.mode ≠ powerModePerformance ∨ d.net.txCount = 0) := by
  constructor
  · intro h hdue
    have hpackets := h.packets hdue
    rw [(powerTickHook_due hdue).2.2] at hpackets
    by_cases hperformance : d.power.mode = powerModePerformance
    · rw [if_pos hperformance] at hpackets
      exact Or.inr hpackets
    · exact Or.inl hperformance
  · intro h
    refine ⟨powerTickHook_ticks d, fun hdue => (powerTickHook_due hdue).2.1, fun hdue => ?_⟩
    rw [(powerTickHook_due hdue).2.2]
    rcases h hdue with hmode | hempty
    · exact if_neg hmode
    · rw [hempty, ite_self]

/-! ## Every tick of a run -/

/-- **The flush ticks of a run leave nothing pending** exactly when none of them finds a packet
    queued in performance mode.

    There is no hypothesis: `d` is any state of the drivers and `ops` any calls and interrupts.
    `hooks` are the states in which the run calls `power_tick_hook`, and the condition is on those
    of them at which a flush is due. -/
theorem flush_ticks_iff (d : Devices) (ops : List DriverOp) :
    (∀ d' ∈ hooks ops d, LeavesNothing d') ↔
      ∀ d' ∈ hooks ops d, reachesInterval d' →
        d'.power.mode ≠ powerModePerformance ∨ d'.net.txCount = 0 :=
  forall₂_congr fun d' _ => leavesNothing_iff d'

/-- A packet queued in balanced mode outlives the flush ticks of performance mode. -/
theorem flush_ticks_strand : ¬ ∀ (d : Devices) (ops : List DriverOp),
    ∀ d' ∈ hooks ops (booted (keyboardInit d)), LeavesNothing d' := by
  intro h
  let ops : List DriverOp := [.call (.net (.tx [1])), .call (.net (.setMode powerModePerformance))]
  let d' := runAll DriverOp.run ops (booted (keyboardInit Devices.loaded))
  have hmem : d' ∈ hooks (ops ++ [.call (.net .tick)]) (booted (keyboardInit Devices.loaded)) := by
    rw [hooks, outputs_snoc]
    exact List.mem_append_right _ List.mem_cons_self
  have hdue : reachesInterval d' := by
    unfold reachesInterval
    decide +kernel
  rcases (leavesNothing_iff d').mp (h Devices.loaded _ d' hmem) hdue with hmode | hempty
  · exact hmode (by decide +kernel)
  · exact absurd hempty (by decide +kernel)

end Proof
end BumbelBee
