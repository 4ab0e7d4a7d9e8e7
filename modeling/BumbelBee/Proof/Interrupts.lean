import BumbelBee.Kernel.Board
import BumbelBee.Proof.NetSpec
import BumbelBee.Proof.Recorder
import BumbelBee.Proof.Schedule

/-!
# What an interrupt records

An interrupt is to the recorder the list of `trace_record` calls its handlers make, and it
leaves the tasks alone (`Machine.interrupt_eq`). Which calls these are the drivers decide:
every interrupt of the kernel with its drivers is one of `Machine`'s (`Board.irq_machine`).

This is what lets the results on recordings speak of every interrupt at once. They are proved of
`Machine`, where a handler is a list of calls, and a run of the kernel with its drivers is one of
`Machine`'s, with for each interrupt the list that the drivers' state has it make.
-/

namespace BumbelBee
namespace Proof

open Lib Kernel

/-! ## The calls -/

/-- `transmit_now` and, with loopback on, `enqueue_rx_packet`. -/
def packetCalls (ticks : UInt64) (pid : UInt32) (packet : UInt64 × Option UInt64) :
    List RecordCall :=
  ⟨ticks, pid, TraceEventType.net.code, 0, netEventTx, packet.1⟩ ::
    packet.2.toList.map fun id => ⟨ticks, pid, TraceEventType.net.code, 0, netEventRx, id⟩

def flushCalls (ticks : UInt64) (pid : UInt32) (f : NetFlush) : List RecordCall :=
  f.packets.flatMap (packetCalls ticks pid) ++
    if f.packets = [] then []
    else [⟨ticks, pid, TraceEventType.power.code, 0, UInt64.ofNat f.packets.length, f.bytes⟩]

/-- What the handlers record behind `isr_dispatch`'s own call. -/
def handlerCalls (ticks : UInt64) (pid : UInt32) : Interrupt → List RecordCall
  | .timer (some f) => flushCalls (ticks + 1) pid f
  | .keyboard (some (ch, scancode)) =>
    [⟨ticks, pid, TraceEventType.keyboard.code, 0, ch, scancode⟩]
  | _ => []

def interruptCalls (ticks : UInt64) (pid : UInt32) (i : Interrupt) : List RecordCall :=
  ⟨ticks, pid, TraceEventType.irq.code, 0, i.vector, 0⟩ :: handlerCalls ticks pid i

/-- The handlers record keys, packets and flushes. -/
theorem handlerCalls_type {ticks : UInt64} {pid : UInt32} {i : Interrupt} {c : RecordCall}
    (h : c ∈ handlerCalls ticks pid i) : c.type = TraceEventType.keyboard.code ∨
      c.type = TraceEventType.net.code ∨ c.type = TraceEventType.power.code := by
  match i with
  | .timer none => cases h
  | .keyboard none => cases h
  | .other _ => cases h
  | .keyboard (some (ch, scancode)) =>
    rw [handlerCalls, List.mem_singleton] at h
    rw [h]
    exact Or.inl rfl
  | .timer (some f) =>
    rw [handlerCalls, flushCalls, List.mem_append] at h
    rcases h with h | h
    · obtain ⟨packet, -, h⟩ := List.mem_flatMap.mp h
      rcases List.mem_cons.mp h with rfl | h
      · exact Or.inr (Or.inl rfl)
      · obtain ⟨id, -, rfl⟩ := List.mem_map.mp h
        exact Or.inr (Or.inl rfl)
    · split at h
      · cases h
      · rw [List.mem_singleton.mp h]
        exact Or.inr (Or.inr rfl)

/-- The PIT's counter behind the interrupt. -/
def ticksAfter (ticks : UInt64) : Interrupt → UInt64
  | .timer _ => ticks + 1
  | _ => ticks

theorem recordAll_append (cs ds : List RecordCall) (t : Trace) :
    recordAll (cs ++ ds) t = recordAll ds (recordAll cs t) := List.foldl_append ..

theorem Machine.transmit_eq (m : Machine) (packet : UInt64 × Option UInt64) :
    m.transmit packet = { m with
      trace := recordAll (packetCalls m.ticks m.sys.sched.currentPid packet) m.trace } := by
  obtain ⟨len, _ | id⟩ := packet <;> rfl

theorem Machine.flush_eq (m : Machine) (f : NetFlush) :
    m.flush f = { m with
      trace := recordAll (flushCalls m.ticks m.sys.sched.currentPid f) m.trace } := by
  have hpackets : ∀ (packets : List (UInt64 × Option UInt64)) (m : Machine),
      packets.foldl (fun m packet => m.transmit packet) m = { m with
        trace := recordAll (packets.flatMap (packetCalls m.ticks m.sys.sched.currentPid))
          m.trace } := by
    intro packets
    induction packets with
    | nil => exact fun m => rfl
    | cons packet packets ih =>
      intro m
      rw [List.foldl_cons, ih, Machine.transmit_eq, List.flatMap_cons, recordAll_append]
  rw [Machine.flush, hpackets, flushCalls, recordAll_append]
  by_cases hnone : f.packets = []
  · simp only [if_pos hnone]
    rfl
  · simp only [if_neg hnone]
    rfl

/-- **An interrupt** to a machine that replays nothing. -/
theorem Machine.interrupt_eq {m : Machine} (h : m.trace.replay.active = false) (i : Interrupt) :
    m.interrupt i = { m with
      trace := recordAll (interruptCalls m.ticks m.sys.sched.currentPid i) m.trace
      ticks := ticksAfter m.ticks i } := by
  rw [Machine.interrupt, h, if_neg Bool.false_ne_true]
  match i with
  | .timer none => rfl
  | .timer (some f) => exact Machine.flush_eq _ f
  | .keyboard none => rfl
  | .keyboard (some (ch, scancode)) => rfl
  | .other line => rfl

theorem Machine.interrupt_replaying {m : Machine} (h : m.trace.replay.active = true)
    (i : Interrupt) : m.interrupt i = m := if_pos h

/-! ## The drivers' interrupts -/

/-- The scancode reaches `keyboard_trace_char`. -/
def keyTraced (scancode : UInt8) (k : Keyboard) : Bool :=
  let key := scancode &&& 0x7f
  scancode != 0xe0 && scancode &&& 0x80 == 0 && !(k.extendedPrefix && scrollKeys.contains key) &&
    key != 0x2a && key != 0x36 && k.decode key != 0

/-- The handler calls `trace_record` behind `isr_dispatch`'s own call. -/
def irqTraced (i : Irq) (d : Devices) : Bool :=
  match i with
  | .timer => tickFlushes d
  | .keyboard scancode => keyTraced scancode d.keyboard
  | .other _ => false

/-- The machine, as a driver sees it. -/
structure Sees (d : Devices) (m : Machine) : Prop where
  trace : d.trace = m.trace
  ticks : d.ticks = m.ticks
  pid : d.currentPid = m.sys.sched.currentPid

variable {d : Devices} {m : Machine}

theorem Sees.record (h : Sees d m) (type : TraceEventType) (pid : UInt32) (data0 data1 : UInt64) :
    Sees (d.record type pid data0 data1) (m.record type pid data0 data1) := by
  refine ⟨?_, h.ticks, h.pid⟩
  simp only [Devices.record, Machine.record, h.trace, h.ticks, h.pid]

theorem Sees.transmit (h : Sees d m) (data : List UInt8) (len : UInt32) :
    ∃ id, Sees (transmitNow data len d) (m.transmit (len.toUInt64, id)) := by
  -- the driver's counters are none of the machine's
  let d₁ : Devices := { d with
    net := { d.net with stats := { d.net.stats with
      txPackets := d.net.stats.txPackets + 1
      txBytes := d.net.stats.txBytes + len.toUInt64 } }
    sent := d.sent ++ [data.take len.toNat] }
  have h₁ : Sees d₁ m := ⟨h.trace, h.ticks, h.pid⟩
  have hsent := h₁.record .net 0 netEventTx len.toUInt64
  by_cases hloop : d.net.stats.loopbackEnabled != 0
  · have hrun : transmitNow data len d =
        enqueueRxPacket data len (d₁.record .net 0 netEventTx len.toUInt64) := if_pos hloop
    have hreceived := hsent.record .net 0 netEventRx d₁.net.makeRoom.nextPacketId
    rw [hrun]
    exact ⟨some _, hreceived.trace, hreceived.ticks, hreceived.pid⟩
  · have hrun : transmitNow data len d = d₁.record .net 0 netEventTx len.toUInt64 := if_neg hloop
    rw [hrun]
    exact ⟨none, hsent⟩

theorem Sees.flushLoop : ∀ (n : Nat) (flushed : UInt32 × UInt32) {d : Devices} {m : Machine},
    Sees d m → ∃ packets : List (UInt64 × Option UInt64), packets.length = n ∧
      Sees (flushLoop n flushed d).2 (packets.foldl (fun m packet => m.transmit packet) m) := by
  intro n
  induction n with
  | zero => exact fun _ _ _ h => ⟨[], rfl, h⟩
  | succ n ih =>
    intro flushed d m h
    obtain ⟨id, hsent⟩ := h.transmit (d.net.txQueue d.net.txHead.toNat).data.bytes
      (d.net.txQueue d.net.txHead.toNat).len
    obtain ⟨packets, hlength, hrest⟩ := ih (flushOne flushed d).1 (d := (flushOne flushed d).2)
      ⟨hsent.trace, hsent.ticks, hsent.pid⟩
    exact ⟨_ :: packets, by rw [List.length_cons, hlength], hrest⟩

theorem flushLoop_packets : ∀ (n : Nat) (flushed : UInt32 × UInt32) (d : Devices),
    (Kernel.flushLoop n flushed d).1.1 = flushed.1 + UInt32.ofNat n
  | 0, flushed, _ => (UInt32.add_zero flushed.1).symm
  | n + 1, flushed, d => by
    rw [Kernel.flushLoop, flushLoop_packets n, UInt32.ofNat_add, UInt32.add_comm (UInt32.ofNat n),
      ← UInt32.add_assoc]
    rfl

theorem Sees.flush (h : Sees d m) : ∃ f : NetFlush,
    f.packets.length = d.net.txCount.toNat ∧ Sees (flushTxQueue d) (m.flush f) := by
  obtain ⟨packets, hlength, hsees⟩ := h.flushLoop d.net.txCount.toNat (0, 0)
  have hflushed := flushLoop_packets d.net.txCount.toNat (0, 0) d
  rw [UInt32.zero_add, UInt32.ofNat_toNat] at hflushed
  refine ⟨⟨packets, (Kernel.flushLoop d.net.txCount.toNat (0, 0) d).1.2.toUInt64⟩, hlength, ?_⟩
  rw [show flushTxQueue d = flushEnd (Kernel.flushLoop d.net.txCount.toNat (0, 0) d).1
    (Kernel.flushLoop d.net.txCount.toNat (0, 0) d).2 from rfl, flushEnd, powerNoteNetFlushed, hflushed,
    Machine.flush]
  by_cases hcount : d.net.txCount = 0
  · have hnone : packets = [] := List.eq_nil_of_length_eq_zero (by rw [hlength, hcount]; rfl)
    simp only [if_pos hcount, if_pos hnone]
    exact ⟨hsees.trace, hsees.ticks, hsees.pid⟩
  · have hsome : packets ≠ [] := fun hnone => hcount (by
      rw [hnone] at hlength
      exact UInt32.toNat_inj.mp hlength.symm)
    simp only [if_neg hcount, if_neg hsome, hlength, UInt64.ofNat_uInt32ToNat]
    have hnoted := hsees.record .power 0 d.net.txCount.toUInt64
      (Kernel.flushLoop d.net.txCount.toNat (0, 0) d).1.2.toUInt64
    exact ⟨hnoted.trace, hnoted.ticks, hnoted.pid⟩

theorem keyboardHandleScancode_trace (scancode : UInt8) (d : Devices) :
    (keyboardHandleScancode scancode d).ticks = d.ticks ∧
      (keyboardHandleScancode scancode d).currentPid = d.currentPid ∧
      (keyboardHandleScancode scancode d).trace =
        if keyTraced scancode d.keyboard then
          (d.record .keyboard 0 (d.keyboard.decode (scancode &&& 0x7f)).toUInt64
            scancode.toUInt64).trace
        else d.trace := by
  have hchar : ∀ (ch : UInt8) (d : Devices), (powerKeyboardChar ch d).ticks = d.ticks ∧
      (powerKeyboardChar ch d).currentPid = d.currentPid ∧
      (powerKeyboardChar ch d).trace = d.trace := by
    intro ch d
    simp only [powerKeyboardChar]
    split <;> exact ⟨rfl, rfl, rfl⟩
  have hsilent : ∀ {d' : Devices}, keyTraced scancode d.keyboard = false → d'.ticks = d.ticks →
      d'.currentPid = d.currentPid → d'.trace = d.trace → d'.ticks = d.ticks ∧
        d'.currentPid = d.currentPid ∧ d'.trace = if keyTraced scancode d.keyboard then
          (d.record .keyboard 0 (d.keyboard.decode (scancode &&& 0x7f)).toUInt64
            scancode.toUInt64).trace else d.trace := by
    intro d' hsilent hticks hpid htrace
    rw [hsilent]
    exact ⟨hticks, hpid, htrace⟩
  -- one test after the other, in the order of the source; a key that fails one is not traced
  simp only [keyboardHandleScancode]
  by_cases hprefix : scancode = 0xe0
  · rw [if_pos hprefix]
    exact hsilent (by simp [keyTraced, hprefix]) rfl rfl rfl
  rw [if_neg hprefix]
  by_cases hscroll : d.keyboard.extendedPrefix ∧ (scancode &&& 0x80 != 0) = false ∧
      scancode &&& 0x7f ∈ scrollKeys
  · rw [if_pos hscroll]
    exact hsilent (by simp [keyTraced, hscroll]) rfl rfl rfl
  rw [if_neg hscroll]
  by_cases hleft : scancode &&& 0x7f = 0x2a
  · rw [if_pos hleft]
    exact hsilent (by simp [keyTraced, hleft]) rfl rfl rfl
  rw [if_neg hleft]
  by_cases hright : scancode &&& 0x7f = 0x36
  · rw [if_pos hright]
    exact hsilent (by simp [keyTraced, hright]) rfl rfl rfl
  rw [if_neg hright]
  by_cases hreleased : (scancode &&& 0x80 != 0) = true
  · rw [if_pos hreleased]
    exact hsilent (by simp_all [keyTraced]) rfl rfl rfl
  rw [if_neg hreleased]
  by_cases hnone : d.keyboard.decode (scancode &&& 0x7f) = 0
  · rw [if_pos hnone]
    exact hsilent (by simp [keyTraced, hnone]) rfl rfl rfl
  · -- every test is passed: the character is traced and handed on
    have hplain : d.keyboard.extendedPrefix = false ∨ scancode &&& 0x7f ∉ scrollKeys := by
      rcases Bool.eq_false_or_eq_true d.keyboard.extendedPrefix with hp | hp
      · exact Or.inr fun hmem => hscroll ⟨hp, Bool.not_eq_true _ |>.mp hreleased, hmem⟩
      · exact Or.inl hp
    have htraced : keyTraced scancode d.keyboard = true := by simp_all [keyTraced]
    rw [if_neg hnone, htraced]
    exact hchar _ _

/-- **The kernel's interrupts** are the machine's: the handlers record what the drivers' state
    has them record, or nothing. -/
theorem Board.irq_machine {b : Board} (h : b.machine.trace.replay.active = false) (i : Irq) :
    ∃ j : Interrupt, (b.irq i).machine = b.machine.interrupt j ∧
      ∀ ticks pid, handlerCalls ticks pid j = [] ↔ irqTraced i b.devices = false := by
  have hdispatch : isrDispatch i b.devices = _ := if_neg (by rw [Board.devices, h]; exact Bool.false_ne_true)
  -- an interrupt that the machine sees alike is its own
  have hsame : ∀ {j : Interrupt}, Sees (isrDispatch i b.devices) (b.machine.interrupt j) →
      (b.irq i).machine = b.machine.interrupt j := by
    intro j hsees
    rw [Board.irq, hsees.trace, hsees.ticks, Machine.interrupt_eq h]
  have hstart : Sees (b.devices.record .irq 0 i.vector 0) (b.machine.record .irq 0 i.vector 0) :=
    Sees.record ⟨rfl, rfl, rfl⟩ ..
  cases i with
  | timer =>
    let d₀ : Devices := { b.devices.record .irq 0 Irq.timer.vector 0 with
      ticks := b.machine.ticks + 1 }
    have htick : isrDispatch .timer b.devices = powerTickHook d₀ := hdispatch
    have h₀ : Sees d₀ { b.machine.record .irq 0 Irq.timer.vector 0 with
        ticks := b.machine.ticks + 1 } := ⟨hstart.trace, rfl, hstart.pid⟩
    rcases powerTickHook_spec d₀ with ⟨hquiet, hmoved⟩ | ⟨hflush, -, d₁, hmoved, hrun⟩
    · refine ⟨.timer none, hsame ?_, fun _ _ => ⟨fun _ => hquiet, fun _ => rfl⟩⟩
      rw [htick, Machine.interrupt, h]
      exact ⟨hmoved.trace.trans h₀.trace, hmoved.ticks, hmoved.pid.trans h₀.pid⟩
    · have h₁ : Sees d₁ { b.machine.record .irq 0 Irq.timer.vector 0 with
          ticks := b.machine.ticks + 1 } :=
        ⟨hmoved.trace.trans h₀.trace, hmoved.ticks, hmoved.pid.trans h₀.pid⟩
      obtain ⟨f, hlength, hsees⟩ := h₁.flush
      refine ⟨.timer (some f), hsame ?_, fun ticks pid => ⟨fun hnone => ?_, fun hquiet => ?_⟩⟩
      · rw [htick, hrun, Machine.interrupt, h]
        exact ⟨hsees.trace, hsees.ticks, hsees.pid⟩
      · -- a tick that flushes finds a packet
        have hnone' : f.packets = [] := by
          cases hpackets : f.packets with
          | nil => rfl
          | cons packet packets =>
            rw [handlerCalls, flushCalls, hpackets] at hnone
            cases hnone
        have hempty : d₀.net.txCount = 0 := by
          rw [hnone', hmoved.net] at hlength
          exact UInt32.toNat_inj.mp hlength.symm
        rw [tickFlushes, hempty, bne_self_eq_false, Bool.and_false] at hflush
        cases hflush
      · rw [show irqTraced .timer b.devices = true from hflush] at hquiet
        cases hquiet
  | keyboard scancode =>
    let d₀ : Devices := b.devices.record .irq 0 (Irq.keyboard scancode).vector 0
    have hkey : isrDispatch (.keyboard scancode) b.devices = keyboardHandleScancode scancode d₀ :=
      hdispatch
    obtain ⟨hticks, hpid, htrace⟩ := keyboardHandleScancode_trace scancode d₀
    by_cases htraced : keyTraced scancode b.keyboard = true
    · rw [show d₀.keyboard = b.keyboard from rfl, if_pos htraced] at htrace
      have hsees := hstart.record .keyboard 0 (b.keyboard.decode (scancode &&& 0x7f)).toUInt64
        scancode.toUInt64
      refine ⟨.keyboard (some ((b.keyboard.decode (scancode &&& 0x7f)).toUInt64,
        scancode.toUInt64)), hsame ?_, fun _ _ => ⟨fun hnone => ?_, fun hquiet => ?_⟩⟩
      · rw [hkey, Machine.interrupt, h]
        exact ⟨htrace.trans hsees.trace, hticks.trans hsees.ticks, hpid.trans hsees.pid⟩
      · cases hnone
      · rw [show irqTraced (.keyboard scancode) b.devices = true from htraced] at hquiet
        cases hquiet
    · rw [show d₀.keyboard = b.keyboard from rfl, if_neg htraced] at htrace
      refine ⟨.keyboard none, hsame ?_, fun _ _ => ⟨fun _ => ?_, fun _ => rfl⟩⟩
      · rw [hkey, Machine.interrupt, h]
        exact ⟨htrace.trans hstart.trace, hticks.trans hstart.ticks, hpid.trans hstart.pid⟩
      · exact Bool.not_eq_true _ |>.mp htraced
  | other line =>
    refine ⟨.other line, hsame ?_, fun _ _ => ⟨fun _ => rfl, fun _ => rfl⟩⟩
    rw [hdispatch, Machine.interrupt, h]
    exact hstart

end Proof
end BumbelBee
