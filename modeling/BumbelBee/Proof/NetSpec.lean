import BumbelBee.Kernel.Isr
import BumbelBee.Lib.Ring

/-!
# What each function of `netfs.c` does

`Link` says what `/net` is for: a line on which a payload is sent when it is written, and
received again while loopback is on. Below it, one lemma per function: what it does to the
link the driver stands for, to the send queue and to the counters the power manager keeps.

The line is what is promised, and the queue is how. A driver that has queued a packet stands for a
line on which it has been sent already, so a flush is no event at all to the line, and the three
results on transmission are about the same thing. The counters are kept apart: they say when
something happened, and the line does not.
-/

namespace BumbelBee
namespace Proof

open Lib Kernel

/-! ## The link -/

@[ext] structure Link where
  sent : List (List UInt8)
  /-- The payloads in the receive queue, oldest first. -/
  received : List (List UInt8)
  loopback : Bool
  txPackets : UInt64
  txBytes : UInt64
  rxPackets : UInt64
  rxBytes : UInt64
  dropped : UInt64
  depth : UInt32
deriving DecidableEq, Repr

/-- The oldest payload goes when there is no room. -/
def Link.makeRoom (l : Link) : Link :=
  if l.received.length = netfsQueueCap then
    { l with received := l.received.drop 1, dropped := l.dropped + 1 }
  else l

/-- A payload comes in. -/
def Link.receive (p : List UInt8) (l : Link) : Link :=
  let p := p.take netfsMaxPayload
  let l := l.makeRoom
  { l with
    received := l.received ++ [p]
    rxPackets := l.rxPackets + 1
    rxBytes := l.rxBytes + UInt64.ofNat p.length
    depth := UInt32.ofNat (l.received.length + 1) }

def Link.send (p : List UInt8) (l : Link) : Link :=
  let l := { l with
    sent := l.sent ++ [p]
    txPackets := l.txPackets + 1
    txBytes := l.txBytes + UInt64.ofNat p.length }
  if l.loopback then l.receive p else l

/-- Payloads sent one after the other. -/
def Link.sendAll (ps : List (List UInt8)) (l : Link) : Link := ps.foldl (fun l p => l.send p) l

theorem Link.sendAll_append (ps qs : List (List UInt8)) (l : Link) :
    l.sendAll (ps ++ qs) = (l.sendAll ps).sendAll qs := List.foldl_append ..

theorem Link.receive_sent (p : List UInt8) (l : Link) :
    (l.receive p).sent = l.sent ∧ (l.receive p).txPackets = l.txPackets := by
  simp only [Link.receive, Link.makeRoom]
  split <;> exact ⟨rfl, rfl⟩

theorem Link.send_sent (p : List UInt8) (l : Link) :
    (l.send p).sent = l.sent ++ [p] ∧ (l.send p).txPackets = l.txPackets + 1 := by
  simp only [Link.send]
  split
  · exact Link.receive_sent p _
  · exact ⟨rfl, rfl⟩

theorem Link.sendAll_sent (ps : List (List UInt8)) : ∀ l : Link,
    (l.sendAll ps).sent = l.sent ++ ps ∧
      (l.sendAll ps).txPackets = l.txPackets + UInt64.ofNat ps.length := by
  induction ps with
  | nil => exact fun l => ⟨(List.append_nil _).symm, (UInt64.add_zero _).symm⟩
  | cons p ps ih =>
    intro l
    obtain ⟨hsent, hpackets⟩ := ih (l.send p)
    obtain ⟨hsent₁, hpackets₁⟩ := l.send_sent p
    refine ⟨?_, ?_⟩
    · rw [show l.sendAll (p :: ps) = (l.send p).sendAll ps from rfl, hsent, hsent₁,
        List.append_assoc]
      rfl
    · rw [show l.sendAll (p :: ps) = (l.send p).sendAll ps from rfl, hpackets, hpackets₁,
        List.length_cons, UInt64.ofNat_add, UInt64.add_assoc, UInt64.add_comm 1]
      rfl

/-! ## What the driver's state stands for -/

/-- The packets in the send queue, oldest first. -/
def queued (n : Netfs) : List NetPacket :=
  window netfsQueueCap n.txQueue n.txHead.toNat n.txCount.toNat

def payloads (n : Netfs) : List (List UInt8) := (queued n).map NetPacket.payload

/-- The payloads in the receive queue, oldest first. -/
def received (n : Netfs) : List (List UInt8) :=
  (window netfsQueueCap n.rxQueue n.rxHead.toNat n.rxCount.toNat).map NetPacket.payload

def link (d : Devices) : Link where
  sent := d.sent
  received := received d.net
  loopback := d.net.stats.loopbackEnabled != 0
  txPackets := d.net.stats.txPackets
  txBytes := d.net.stats.txBytes
  rxPackets := d.net.stats.rxPackets
  rxBytes := d.net.stats.rxBytes
  dropped := d.net.stats.droppedPackets
  depth := d.net.stats.queueDepth

/-- Both rings are rings. -/
structure Rings (n : Netfs) : Prop where
  rxHead : n.rxHead.toNat < netfsQueueCap
  rxCount : n.rxCount.toNat ≤ netfsQueueCap
  txHead : n.txHead.toNat < netfsQueueCap
  txCount : n.txCount.toNat ≤ netfsQueueCap

@[simp] theorem length_payloads (n : Netfs) : (payloads n).length = n.txCount.toNat := by
  simp [payloads, queued]

@[simp] theorem length_received (n : Netfs) : (received n).length = n.rxCount.toNat := by
  simp [received]

/-! ## Recording leaves the drivers alone -/

section Record

variable (type : TraceEventType) (pid : UInt32) (data0 data1 : UInt64) (d : Devices)

@[simp] theorem record_net : (d.record type pid data0 data1).net = d.net := rfl
@[simp] theorem record_power : (d.record type pid data0 data1).power = d.power := rfl
@[simp] theorem record_keyboard : (d.record type pid data0 data1).keyboard = d.keyboard := rfl
@[simp] theorem record_sent : (d.record type pid data0 data1).sent = d.sent := rfl
@[simp] theorem record_link : link (d.record type pid data0 data1) = link d := rfl

end Record

/-! ## Slots and lengths -/

theorem toNat_queueCap : (UInt32.ofNat netfsQueueCap).toNat = netfsQueueCap := rfl

theorem slot_toNat {head count : UInt32} (hhead : head.toNat < netfsQueueCap)
    (hcount : count.toNat ≤ netfsQueueCap) :
    ((head + count) % UInt32.ofNat netfsQueueCap).toNat =
      (head.toNat + count.toNat) % netfsQueueCap := by
  have hcap : netfsQueueCap = 32 := rfl
  have hsum : (head + count).toNat = head.toNat + count.toNat := by
    rw [UInt32.toNat_add, Nat.mod_eq_of_lt (by omega)]
  rw [UInt32.toNat_mod, toNat_queueCap, hsum]

theorem next_toNat {head : UInt32} (hhead : head.toNat < netfsQueueCap) :
    ((head + 1) % UInt32.ofNat netfsQueueCap).toNat = (head.toNat + 1) % netfsQueueCap :=
  slot_toNat hhead (by decide)

theorem next_lt (head : UInt32) :
    ((head + 1) % UInt32.ofNat netfsQueueCap).toNat < netfsQueueCap := by
  rw [UInt32.toNat_mod, toNat_queueCap]
  exact Nat.mod_lt _ (by decide)

theorem succ_toNat {count : UInt32} (hcount : count.toNat < netfsQueueCap) :
    (count + 1).toNat = count.toNat + 1 := by
  have : netfsQueueCap = 32 := rfl
  rw [UInt32.toNat_add, show (1 : UInt32).toNat = 1 from rfl, Nat.mod_eq_of_lt (by omega)]

theorem pred_toNat {count : UInt32} (hcount : count ≠ 0) :
    (count - 1).toNat = count.toNat - 1 := by
  have hpos : count.toNat ≠ 0 := fun h => hcount (UInt32.toNat_inj.mp h)
  rw [UInt32.toNat_sub_of_le _ _ (UInt32.le_iff_toNat_le.mpr (by
    rw [show (1 : UInt32).toNat = 1 from rfl]; omega))]
  rfl

theorem full_iff {count : UInt32} :
    count = UInt32.ofNat netfsQueueCap ↔ count.toNat = netfsQueueCap := by
  rw [← UInt32.toNat_inj, toNat_queueCap]

/-- The packet holds the bytes it was filled with. -/
theorem payload_fill {id ticks : UInt64} {data : List UInt8} {len : UInt32} (p : NetPacket)
    (hlen : len.toNat ≤ data.length) (hmax : len.toNat ≤ netfsMaxPayload) :
    (p.fill id ticks data len hmax).payload = data.take len.toNat := by
  have htake : (data.take len.toNat).length = len.toNat := by
    rw [List.length_take, Nat.min_eq_left hlen]
  by_cases h0 : len = 0
  · subst h0
    rfl
  · have hfits : (data.take len.toNat).length ≤ netfsMaxPayload := by
      rw [htake]
      exact hmax
    have hcopy := Block.take_copyFront p.data hfits
    rw [htake] at hcopy
    simp only [NetPacket.payload, NetPacket.fill, if_neg h0]
    exact hcopy

/-! ## Receiving and sending -/

/-- Neither the send queue nor the power manager is touched. -/
structure TxKept (d d' : Devices) : Prop where
  txQueue : d'.net.txQueue = d.net.txQueue
  txHead : d'.net.txHead = d.net.txHead
  txCount : d'.net.txCount = d.net.txCount
  txPendingBytes : d'.net.txPendingBytes = d.net.txPendingBytes
  power : d'.power = d.power
  keyboard : d'.keyboard = d.keyboard

theorem TxKept.payloads {d d' : Devices} (h : TxKept d d') : payloads d'.net = payloads d.net := by
  rw [Proof.payloads, queued, h.txQueue, h.txHead, h.txCount]
  rfl

/-- Making room for a packet: behind it there is a slot. -/
theorem makeRoom_spec {d : Devices} (h : Rings d.net) :
    link { d with net := d.net.makeRoom } = (link d).makeRoom ∧
      d.net.makeRoom.rxHead.toNat < netfsQueueCap ∧
      d.net.makeRoom.rxCount.toNat < netfsQueueCap ∧ Rings d.net.makeRoom := by
  have hlength : (link d).received.length = d.net.rxCount.toNat := length_received d.net
  by_cases hfull : d.net.rxCount = UInt32.ofNat netfsQueueCap
  · -- the oldest packet goes
    have hcount : d.net.rxCount.toNat = netfsQueueCap := full_iff.mp hfull
    have hroom : d.net.makeRoom = { d.net with
        rxHead := (d.net.rxHead + 1) % UInt32.ofNat netfsQueueCap
        rxCount := d.net.rxCount - 1
        stats := { d.net.stats with droppedPackets := d.net.stats.droppedPackets + 1 } } :=
      if_pos hfull
    have hpred : (d.net.rxCount - 1).toNat = netfsQueueCap - 1 := by
      rw [pred_toNat (by rw [hfull]; decide), hcount]
    have hdrop : (received d.net).drop 1 = received d.net.makeRoom := by
      rw [hroom, received, received, hcount]
      simp only
      rw [hpred, next_toNat h.rxHead, show netfsQueueCap = 31 + 1 from rfl, window_succ,
        List.map_cons, List.drop_one, List.tail_cons]
    refine ⟨?_, by rw [hroom]; exact next_lt _, by rw [hroom]; exact hpred.trans_lt (by decide), ?_⟩
    · rw [Link.makeRoom, if_pos (hlength.trans hcount), show (link d).received = received d.net from rfl,
        hdrop, hroom]
      rfl
    · rw [hroom]
      exact ⟨next_lt _, hpred.trans_le (by decide), h.txHead, h.txCount⟩
  · have hroom : d.net.makeRoom = d.net := if_neg hfull
    have hne : d.net.rxCount.toNat ≠ netfsQueueCap := fun hc => hfull (full_iff.mpr hc)
    rw [hroom]
    refine ⟨?_, h.rxHead, Nat.lt_of_le_of_ne h.rxCount hne, h⟩
    rw [Link.makeRoom, if_neg (by rw [hlength]; exact hne)]

theorem enqueueRxPacket_spec {d : Devices} (data : List UInt8) (len : UInt32)
    (h : Rings d.net) (hlen : len.toNat ≤ data.length) :
    link (enqueueRxPacket data len d) = (link d).receive (data.take len.toNat) ∧
      Rings (enqueueRxPacket data len d).net ∧ TxKept d (enqueueRxPacket data len d) := by
  obtain ⟨hlink, hhead, hcount, hrings⟩ := makeRoom_spec h
  have hclamp := clampLen_toNat len
  have htake : data.take (clampLen len).toNat = (data.take len.toNat).take netfsMaxPayload := by
    rw [hclamp, List.take_take, Nat.min_comm]
  have hslot := slot_toNat hhead hcount.le
  have hsucc := succ_toNat hcount
  have hreceived : received (enqueueRxPacket data len d).net =
      received d.net.makeRoom ++ [(data.take len.toNat).take netfsMaxPayload] := by
    simp only [enqueueRxPacket, record_net, received]
    rw [hsucc, hslot, window_put _ _ _ hcount, List.map_append, List.map_singleton,
      payload_fill _ (by rw [hclamp]; omega), htake]
  have hbytes : (clampLen len).toUInt64 =
      UInt64.ofNat ((data.take len.toNat).take netfsMaxPayload).length := by
    rw [← htake, List.length_take, Nat.min_eq_left (by rw [hclamp]; omega),
      UInt64.ofNat_uInt32ToNat]
  have hdepth : d.net.makeRoom.rxCount + 1 =
      UInt32.ofNat ((received d.net.makeRoom).length + 1) := by
    rw [length_received, ← hsucc, UInt32.ofNat_toNat]
  refine ⟨?_, ⟨hhead, ?_, hrings.txHead, hrings.txCount⟩, ?_⟩
  · rw [Link.receive, ← hlink]
    refine Link.ext rfl hreceived rfl rfl rfl rfl ?_ rfl hdepth
    exact congrArg (d.net.makeRoom.stats.rxBytes + ·) hbytes
  · exact (hsucc.trans_le hcount)
  · have hroom : TxKept d { d with net := d.net.makeRoom } := by
      simp only [Netfs.makeRoom]
      split <;> exact ⟨rfl, rfl, rfl, rfl, rfl, rfl⟩
    exact ⟨hroom.txQueue, hroom.txHead, hroom.txCount, hroom.txPendingBytes, rfl, rfl⟩

theorem transmitNow_spec {d : Devices} (data : List UInt8) (len : UInt32)
    (h : Rings d.net) (hlen : len.toNat ≤ data.length) :
    link (transmitNow data len d) = (link d).send (data.take len.toNat) ∧
      Rings (transmitNow data len d).net ∧ TxKept d (transmitNow data len d) := by
  have hbytes : len.toUInt64 = UInt64.ofNat (data.take len.toNat).length := by
    rw [List.length_take, Nat.min_eq_left hlen, UInt64.ofNat_uInt32ToNat]
  -- the counters and the record, before anything is received
  let d₁ : Devices := { d with
    net := { d.net with stats := { d.net.stats with
      txPackets := d.net.stats.txPackets + 1
      txBytes := d.net.stats.txBytes + len.toUInt64 } }
    sent := d.sent ++ [data.take len.toNat] }
  have hlink : link (d₁.record .net 0 netEventTx len.toUInt64) = { link d with
      sent := d.sent ++ [data.take len.toNat]
      txPackets := d.net.stats.txPackets + 1
      txBytes := d.net.stats.txBytes + UInt64.ofNat (data.take len.toNat).length } := by
    rw [record_link, ← hbytes]
    rfl
  have hrings : Rings (d₁.record .net 0 netEventTx len.toUInt64).net :=
    ⟨h.rxHead, h.rxCount, h.txHead, h.txCount⟩
  by_cases hloop : d.net.stats.loopbackEnabled != 0
  · have hrun : transmitNow data len d =
        enqueueRxPacket data len (d₁.record .net 0 netEventTx len.toUInt64) := if_pos hloop
    obtain ⟨hlink', hrings', hkept⟩ := enqueueRxPacket_spec data len hrings hlen
    rw [hrun]
    refine ⟨?_, hrings', hkept.txQueue, hkept.txHead, hkept.txCount, hkept.txPendingBytes,
      hkept.power, hkept.keyboard⟩
    rw [hlink', hlink]
    exact (if_pos hloop).symm
  · have hrun : transmitNow data len d = d₁.record .net 0 netEventTx len.toUInt64 := if_neg hloop
    rw [hrun]
    refine ⟨?_, hrings, rfl, rfl, rfl, rfl, rfl, rfl⟩
    rw [hlink]
    exact (if_neg hloop).symm

/-! ## Queueing -/

/-- The payload joins the queue; the line sees nothing of it. -/
structure Enqueued (p : List UInt8) (d d' : Devices) : Prop where
  link : link d' = link d
  rings : Rings d'.net
  payloads : payloads d'.net = payloads d.net ++ [p]
  count : d'.net.txCount.toNat = d.net.txCount.toNat + 1
  pendingBytes : d'.net.txPendingBytes = d.net.txPendingBytes + UInt32.ofNat p.length
  power : d'.power = { d.power with stats := { d.power.stats with
    netTxEnqueued := d.power.stats.netTxEnqueued + 1
    pendingTxPackets := d'.net.txCount
    pendingTxBytes := d'.net.txPendingBytes } }
  keyboard : d'.keyboard = d.keyboard

theorem enqueueTxPacket_spec {d : Devices} {data : List UInt8} {len : UInt32}
    (h : Rings d.net) (hlen : len.toNat ≤ data.length) (hroom : d.net.txCount.toNat < netfsQueueCap) :
    ∃ d', enqueueTxPacket data len d = some d' ∧
      Enqueued ((data.take len.toNat).take netfsMaxPayload) d d' := by
  have hnotfull : ¬ d.net.txCount = UInt32.ofNat netfsQueueCap := fun hfull =>
    absurd (full_iff.mp hfull) (Nat.ne_of_lt hroom)
  have hclamp := clampLen_toNat len
  have htake : data.take (clampLen len).toNat = (data.take len.toNat).take netfsMaxPayload := by
    rw [hclamp, List.take_take, Nat.min_comm]
  have hlength : ((data.take len.toNat).take netfsMaxPayload).length = (clampLen len).toNat := by
    rw [← htake, List.length_take, Nat.min_eq_left (by rw [hclamp]; omega)]
  have hslot := slot_toNat h.txHead hroom.le
  have hsucc := succ_toNat hroom
  refine ⟨_, if_neg hnotfull, rfl, ⟨h.rxHead, h.rxCount, h.txHead, hsucc.trans_le hroom⟩, ?_,
    hsucc, ?_, rfl, rfl⟩
  · simp only [powerSetPendingNet, powerNoteNetEnqueued, payloads, queued]
    rw [hsucc, hslot, window_put _ _ _ hroom, List.map_append, List.map_singleton,
      payload_fill _ (by rw [hclamp]; omega), htake]
  · rw [hlength, UInt32.ofNat_toNat]
    rfl

theorem enqueueTxPacket_full {d : Devices} {data : List UInt8} {len : UInt32}
    (hfull : d.net.txCount.toNat = netfsQueueCap) : enqueueTxPacket data len d = none :=
  if_pos (full_iff.mpr hfull)

/-! ## Flushing -/

/-- **One round**: the first packet of the queue is sent and leaves it. -/
theorem flushOne_spec {d : Devices} (h : Rings d.net) {n : Nat} (hn : d.net.txCount.toNat = n + 1)
    (flushed : UInt32 × UInt32) :
    ∃ p, payloads d.net = p :: payloads (flushOne flushed d).2.net ∧
      link (flushOne flushed d).2 = (link d).send p ∧ Rings (flushOne flushed d).2.net ∧
      (flushOne flushed d).2.net.txCount.toNat = n ∧
      (flushOne flushed d).2.power = d.power ∧ (flushOne flushed d).2.keyboard = d.keyboard ∧
      (flushOne flushed d).1.1 = flushed.1 + 1 := by
  let pkt := d.net.txQueue d.net.txHead.toNat
  obtain ⟨hlink, hrings, hkept⟩ := transmitNow_spec pkt.data.bytes pkt.len h
    (by rw [Block.length_bytes]; exact pkt.fits)
  have hcount : (d.net.txCount - 1).toNat = n := by
    rw [pred_toNat (fun h0 => by rw [h0] at hn; exact absurd hn (by simp)), hn]
    rfl
  have hqueue : queued (flushOne flushed d).2.net = window netfsQueueCap d.net.txQueue
      ((d.net.txHead + 1) % UInt32.ofNat netfsQueueCap).toNat (d.net.txCount - 1).toNat := by
    rw [← hkept.txQueue, ← hkept.txHead, ← hkept.txCount]
    rfl
  have hcount' : (flushOne flushed d).2.net.txCount.toNat = n := by
    rw [← hcount, ← hkept.txCount]
    rfl
  refine ⟨pkt.payload, ?_, hlink, ⟨hrings.rxHead, hrings.rxCount, next_lt _, ?_⟩, hcount',
    hkept.power, hkept.keyboard, rfl⟩
  · rw [payloads, payloads, hqueue, queued, hn, window_succ, List.map_cons,
      Nat.mod_eq_of_lt h.txHead, next_toNat h.txHead, hcount]
  · have := h.txCount
    rw [hcount']
    omega

theorem flushLoop_spec : ∀ (n : Nat) {d : Devices} (flushed : UInt32 × UInt32), Rings d.net →
    d.net.txCount.toNat = n →
    link (flushLoop n flushed d).2 = (link d).sendAll (payloads d.net) ∧
      Rings (flushLoop n flushed d).2.net ∧ (flushLoop n flushed d).2.net.txCount = 0 ∧
      (flushLoop n flushed d).2.power = d.power ∧ (flushLoop n flushed d).2.keyboard = d.keyboard ∧
      (flushLoop n flushed d).1.1 = flushed.1 + UInt32.ofNat n := by
  intro n
  induction n with
  | zero =>
    intro d flushed h hn
    have hempty : payloads d.net = [] := List.eq_nil_of_length_eq_zero (by rw [length_payloads, hn])
    refine ⟨?_, h, UInt32.toNat_inj.mp hn, rfl, rfl, (UInt32.add_zero _).symm⟩
    rw [hempty]
    rfl
  | succ n ih =>
    intro d flushed h hn
    obtain ⟨p, hpayloads, hlink, hrings, hcount, hpower, hkeyboard, hflushed⟩ :=
      flushOne_spec h hn flushed
    obtain ⟨hlink', hrings', hcount', hpower', hkeyboard', hflushed'⟩ :=
      ih (flushOne flushed d).1 hrings hcount
    refine ⟨?_, hrings', hcount', hpower'.trans hpower, hkeyboard'.trans hkeyboard, ?_⟩
    · rw [flushLoop, hlink', hlink, hpayloads]
      rfl
    · rw [flushLoop, hflushed', hflushed, UInt32.ofNat_add, UInt32.add_assoc, UInt32.add_comm 1]
      rfl

/-- What flushing `n` packets leaves of the power manager's counters. -/
def flushedStats (n : UInt32) (s : PowerStats) : PowerStats :=
  if n = 0 then { s with pendingTxPackets := 0, pendingTxBytes := 0 }
  else { s with
    wakeups := s.wakeups + 1
    netFlushes := s.netFlushes + 1
    netTxFlushed := s.netTxFlushed + n.toUInt64
    pendingTxPackets := 0
    pendingTxBytes := 0 }

/-- Everything queued is sent, in the order it was queued. -/
structure Flushed (d d' : Devices) : Prop where
  link : link d' = (link d).sendAll (payloads d.net)
  rings : Rings d'.net
  count : d'.net.txCount = 0
  pendingBytes : d'.net.txPendingBytes = 0
  power : d'.power = { d.power with stats := flushedStats d.net.txCount d.power.stats }
  keyboard : d'.keyboard = d.keyboard

theorem Flushed.payloads {d d' : Devices} (h : Flushed d d') : payloads d'.net = [] :=
  List.eq_nil_of_length_eq_zero (by rw [length_payloads, h.count]; rfl)

/-- Taking away from nothing leaves nothing. -/
theorem saturate_zero (b : UInt32) : (if (0 : UInt32) ≥ b then 0 - b else 0) = 0 := by
  split
  · rename_i hle
    have hb : b = 0 := UInt32.toNat_inj.mp (Nat.le_zero.mp (UInt32.le_iff_toNat_le.mp hle))
    rw [hb, UInt32.sub_zero]
  · rfl

theorem flushEnd_power {flushed : UInt32 × UInt32} {d : Devices} (hcount : d.net.txCount = 0) :
    (flushEnd flushed d).power = { d.power with stats := flushedStats flushed.1 d.power.stats } := by
  simp only [flushEnd, powerSetPendingNet, powerNoteNetFlushed, flushedStats, hcount]
  split
  · rfl
  · simp only [record_power, saturate_zero]

theorem flushEnd_kept (flushed : UInt32 × UInt32) (d : Devices) :
    (flushEnd flushed d).net = { d.net with txPendingBytes := 0 } ∧
      (flushEnd flushed d).sent = d.sent ∧ (flushEnd flushed d).keyboard = d.keyboard := by
  simp only [flushEnd, powerSetPendingNet, powerNoteNetFlushed]
  split <;> exact ⟨rfl, rfl, rfl⟩

/-- A link is read off the network driver and what it sent. -/
theorem link_congr {d d' : Devices} (hsent : d'.sent = d.sent) {bytes : UInt32}
    (hnet : d'.net = { d.net with txPendingBytes := bytes }) : link d' = link d := by
  rw [link, link, hsent, hnet]
  rfl

theorem flushTxQueue_spec {d : Devices} (h : Rings d.net) : Flushed d (flushTxQueue d) := by
  obtain ⟨hlink, hrings, hcount, hpower, hkeyboard, hflushed⟩ :=
    flushLoop_spec d.net.txCount.toNat (0, 0) h rfl
  rw [UInt32.zero_add, UInt32.ofNat_toNat] at hflushed
  obtain ⟨hnet, hsent, hkeyboard'⟩ := flushEnd_kept (flushLoop d.net.txCount.toNat (0, 0) d).1
    (flushLoop d.net.txCount.toNat (0, 0) d).2
  have hrun : flushTxQueue d = flushEnd (flushLoop d.net.txCount.toNat (0, 0) d).1
      (flushLoop d.net.txCount.toNat (0, 0) d).2 := rfl
  refine ⟨?_, ?_, ?_, ?_, ?_, ?_⟩
  · rw [hrun, link_congr hsent hnet, hlink]
  · rw [hrun, hnet]
    exact ⟨hrings.rxHead, hrings.rxCount, hrings.txHead, hrings.txCount⟩
  · rw [hrun, hnet]
    exact hcount
  · rw [hrun, hnet]
  · rw [hrun, flushEnd_power hcount, hpower, hflushed]
  · rw [hrun, hkeyboard', hkeyboard]

/-! ## Writing to `/net/tx` -/

/-- The bytes a write hands over: `strlen` is kept in a `u32`. -/
def written (data : List UInt8) : List UInt8 := data.take (UInt32.ofNat data.length).toNat

theorem written_of_le {data : List UInt8} (h : data.length ≤ netfsMaxPayload) :
    written data = data := by
  have hlen : (UInt32.ofNat data.length).toNat = data.length :=
    UInt32.toNat_ofNat_of_lt' (h.trans_lt (by decide))
  rw [written, hlen, List.take_length]

theorem ofNat_length_le (data : List UInt8) :
    (UInt32.ofNat data.length).toNat ≤ data.length := by
  rw [UInt32.toNat_ofNat']
  exact Nat.mod_le _ _

theorem netfsWritePath_tx (data : List UInt8) (d : Devices) :
    netfsWritePath (cstr "/net/tx") data d =
      if d.power.mode = powerModePerformance then
        (0, transmitNow data (UInt32.ofNat data.length) d)
      else netfsQueueTx data d := by
  rw [netfsWritePath, if_neg (by decide), if_neg (by decide), if_pos rfl]

theorem powerNetBatchLimit_bounds (p : Power) :
    1 ≤ (powerNetBatchLimit p).toNat ∧ (powerNetBatchLimit p).toNat ≤ 16 := by
  unfold powerNetBatchLimit
  split
  · decide
  · split
    · decide
    · split <;> decide

/-- **A queued write** is never refused: room is made by flushing, and behind the write the
    queue is flushed once it has reached the batch limit. -/
theorem netfsQueueTx_spec {d : Devices} (h : Rings d.net) (data : List UInt8) :
    ∃ d₀ d₁, (d₀ = d ∨ d.net.txCount.toNat = netfsQueueCap ∧ Flushed d d₀) ∧
      Enqueued ((written data).take netfsMaxPayload) d₀ d₁ ∧
      netfsQueueTx data d =
        (0, if d₁.net.txCount ≥ powerNetBatchLimit d₁.power then flushTxQueue d₁ else d₁) := by
  by_cases hfull : d.net.txCount.toNat = netfsQueueCap
  · have hflushed := flushTxQueue_spec h
    obtain ⟨d₁, hrun, henqueued⟩ := enqueueTxPacket_spec hflushed.rings (ofNat_length_le data)
      (by rw [hflushed.count]; decide)
    refine ⟨_, d₁, Or.inr ⟨hfull, hflushed⟩, henqueued, ?_⟩
    rw [netfsQueueTx, enqueueTxPacket_full hfull]
    simp only [hrun]
  · obtain ⟨d₁, hrun, henqueued⟩ := enqueueTxPacket_spec h (ofNat_length_le data)
      (Nat.lt_of_le_of_ne h.txCount hfull)
    refine ⟨d, d₁, Or.inl rfl, henqueued, ?_⟩
    rw [netfsQueueTx, hrun]

/-! ## Ticks -/

/-- Only keys move: the network driver and the counters kept for it stay. -/
structure KeysMoved (d d' : Devices) : Prop where
  net : d'.net = d.net
  sent : d'.sent = d.sent
  trace : d'.trace = d.trace
  mode : d'.power.mode = d.power.mode
  pendingTxPackets : d'.power.stats.pendingTxPackets = d.power.stats.pendingTxPackets
  pendingTxBytes : d'.power.stats.pendingTxBytes = d.power.stats.pendingTxBytes
  netTxEnqueued : d'.power.stats.netTxEnqueued = d.power.stats.netTxEnqueued
  netTxFlushed : d'.power.stats.netTxFlushed = d.power.stats.netTxFlushed
  ticks : d'.ticks = d.ticks
  pid : d'.currentPid = d.currentPid

theorem keyboardDrain_kept : ∀ (n : Nat) (d : Devices), KeysMoved d (keyboardDrain n d)
  | 0, _ => ⟨rfl, rfl, rfl, rfl, rfl, rfl, rfl, rfl, rfl, rfl⟩
  | n + 1, d => by
    obtain ⟨hnet, hsent, htrace, hmode, hpackets, hbytes, henqueued, hflushed, hticks, hpid⟩ :=
      keyboardDrain_kept n { d with
        keyboard := keyboardBufferPut (d.power.keyboardQ d.power.keyboardHead.toNat) d.keyboard
        power := { d.power with
          keyboardHead := (d.power.keyboardHead + 1) % UInt32.ofNat powerKeyboardQcap
          keyboardCount := d.power.keyboardCount - 1 } }
    exact ⟨hnet, hsent, htrace, hmode, hpackets, hbytes, henqueued, hflushed, hticks, hpid⟩

theorem keyboardFlushNow_kept (d : Devices) : KeysMoved d (keyboardFlushNow d) := by
  unfold keyboardFlushNow
  split
  · exact ⟨rfl, rfl, rfl, rfl, rfl, rfl, rfl, rfl, rfl, rfl⟩
  · obtain ⟨hnet, hsent, htrace, hmode, hpackets, hbytes, henqueued, hflushed, hticks, hpid⟩ :=
      keyboardDrain_kept d.power.keyboardCount.toNat { d with power := { d.power with stats :=
        { d.power.stats with
          wakeups := d.power.stats.wakeups + 1
          keyboardFlushes := d.power.stats.keyboardFlushes + 1 } } }
    exact ⟨hnet, hsent, htrace, hmode, hpackets, hbytes, henqueued, hflushed, hticks, hpid⟩

/-- The tick at which the queue is flushed. -/
def tickFlushes (d : Devices) : Bool :=
  d.power.ticksSinceFlush + 1 ≥ powerKeyboardFlushInterval d.power &&
    d.power.mode != powerModePerformance && d.net.txCount != 0

/-- **A tick** moves keys, and may flush the queue behind them. -/
theorem powerTickHook_spec (d : Devices) :
    (tickFlushes d = false ∧ KeysMoved d (powerTickHook d)) ∨
      (tickFlushes d = true ∧ d.power.mode ≠ powerModePerformance ∧ ∃ d₁, KeysMoved d d₁ ∧
        powerTickHook d = { flushTxQueue d₁ with
          power := { (flushTxQueue d₁).power with ticksSinceFlush := 0 } }) := by
  let d₀ := { d with power := { d.power with ticksSinceFlush := d.power.ticksSinceFlush + 1 } }
  have hkept := keyboardFlushNow_kept d₀
  have hmoved : KeysMoved d (keyboardFlushNow d₀) :=
    ⟨hkept.net, hkept.sent, hkept.trace, hkept.mode, hkept.pendingTxPackets, hkept.pendingTxBytes,
      hkept.netTxEnqueued, hkept.netTxFlushed, hkept.ticks, hkept.pid⟩
  by_cases hdue : d.power.ticksSinceFlush + 1 ≥ powerKeyboardFlushInterval d.power
  · have hrun : powerTickHook d = { netfsPowerTick (keyboardFlushNow d₀) with
        power := { (netfsPowerTick (keyboardFlushNow d₀)).power with ticksSinceFlush := 0 } } :=
      if_pos hdue
    have htick : netfsPowerTick (keyboardFlushNow d₀) =
        if d.power.mode ≠ powerModePerformance ∧ d.net.txCount ≠ 0 then
          flushTxQueue (keyboardFlushNow d₀) else keyboardFlushNow d₀ := by
      rw [netfsPowerTick, hmoved.mode, hmoved.net]
    by_cases hflush : d.power.mode ≠ powerModePerformance ∧ d.net.txCount ≠ 0
    · refine Or.inr ⟨?_, hflush.1, _, hmoved, ?_⟩
      · rw [tickFlushes, Bool.and_assoc, Bool.and_eq_true]
        exact ⟨decide_eq_true hdue, by simpa using hflush⟩
      · rw [hrun, htick, if_pos hflush]
    · refine Or.inl ⟨?_, ?_⟩
      · rw [tickFlushes, Bool.and_assoc, Bool.and_eq_false_iff]
        exact Or.inr (by simpa using hflush)
      · rw [hrun, htick, if_neg hflush]
        exact ⟨hmoved.net, hmoved.sent, hmoved.trace, hmoved.mode, hmoved.pendingTxPackets,
          hmoved.pendingTxBytes, hmoved.netTxEnqueued, hmoved.netTxFlushed, hmoved.ticks, hmoved.pid⟩
  · refine Or.inl ⟨?_, ?_⟩
    · simp only [tickFlushes, hdue, decide_false, Bool.false_and]
    · rw [show powerTickHook d = d₀ from if_neg hdue]
      exact ⟨rfl, rfl, rfl, rfl, rfl, rfl, rfl, rfl, rfl, rfl⟩

/-! ## Interrupts -/

/-- The handler that comes in flushes the queue. -/
def irqFlushes (i : Irq) (d : Devices) : Bool :=
  i == .timer && !d.trace.replay.active && tickFlushes d

theorem keyboardHandleScancode_kept (scancode : UInt8) (d : Devices) :
    (keyboardHandleScancode scancode d).net = d.net ∧
      (keyboardHandleScancode scancode d).sent = d.sent := by
  have hchar : ∀ (ch : UInt8) (d : Devices),
      (powerKeyboardChar ch d).net = d.net ∧ (powerKeyboardChar ch d).sent = d.sent := by
    intro ch d
    simp only [powerKeyboardChar]
    split <;> exact ⟨rfl, rfl⟩
  simp only [keyboardHandleScancode]
  split
  · exact ⟨rfl, rfl⟩
  · split
    · exact ⟨rfl, rfl⟩
    · split
      · exact ⟨rfl, rfl⟩
      · split
        · exact ⟨rfl, rfl⟩
        · split
          · exact ⟨rfl, rfl⟩
          · split
            · exact ⟨rfl, rfl⟩
            · exact hchar _ _

/-- **An interrupt** leaves the network driver alone, but for the timer's at a tick that
    flushes. -/
theorem isrDispatch_spec (i : Irq) (d : Devices) :
    (irqFlushes i d = false ∧ (isrDispatch i d).net = d.net ∧ (isrDispatch i d).sent = d.sent) ∨
      (irqFlushes i d = true ∧ tickFlushes d = true ∧ ∃ d₁, d₁.net = d.net ∧ d₁.sent = d.sent ∧
        (isrDispatch i d).net = (flushTxQueue d₁).net ∧
        (isrDispatch i d).sent = (flushTxQueue d₁).sent) := by
  by_cases hreplay : d.trace.replay.active = true
  · refine Or.inl ⟨?_, ?_⟩
    · simp only [irqFlushes, hreplay, Bool.not_true, Bool.and_false, Bool.false_and]
    · rw [show isrDispatch i d = d from if_pos hreplay]
      exact ⟨rfl, rfl⟩
  rw [irqFlushes, Bool.not_eq_true _ |>.mp hreplay, isrDispatch, if_neg hreplay]
  cases i with
  | timer =>
    let d₀ : Devices := { d.record .irq 0 Irq.timer.vector 0 with ticks := d.ticks + 1 }
    show _ ∨ _ ∧ _ ∧ ∃ d₁, _ ∧ _ ∧ (powerTickHook d₀).net = _ ∧ (powerTickHook d₀).sent = _
    rcases powerTickHook_spec d₀ with ⟨hquiet, hmoved⟩ | ⟨hflush, -, d₁, hmoved, hrun⟩
    · exact Or.inl ⟨hquiet, hmoved.net, hmoved.sent⟩
    · refine Or.inr ⟨hflush, hflush, d₁, hmoved.net, hmoved.sent, ?_⟩
      rw [hrun]
      exact ⟨rfl, rfl⟩
  | keyboard scancode =>
    exact Or.inl ⟨rfl, keyboardHandleScancode_kept scancode _⟩
  | other line => exact Or.inl ⟨rfl, rfl, rfl⟩

end Proof
end BumbelBee
