import BumbelBee.Kernel.Nodes
import BumbelBee.Proof.Transmit

/-!
# Packets that are received

The receive queue is the end of a log that is never shortened: the packets in the order they
came in, from an injection or looped back, each with the number it was given. The queue holds
the last 32 of them, and the counters count the log, however often both wrap.

The log is a ghost: no variable of the driver holds it. What makes it useful is that both wrapping
counters are read off it, the queue's position as a number modulo 32 and the ids modulo 2⁶⁴, so that
no case for a counter that goes round is ever needed.
-/

namespace BumbelBee
namespace Proof

open Lib Kernel

/-! ## The log -/

/-- A packet that came in: its number, counted from 1 on without end, and its payload. -/
structure Arrival where
  number : Nat
  payload : List UInt8
deriving DecidableEq, Repr

/-- What a packet shows: its id and its payload. -/
def shownPacket (p : NetPacket) : UInt64 × List UInt8 := (p.packetId, p.payload)

def Arrival.shown (a : Arrival) : UInt64 × List UInt8 := (UInt64.ofNat a.number, a.payload)

/-- The receive queue, read from `rx_head` on. -/
def rxEntries (n : Netfs) : List (UInt64 × List UInt8) :=
  (window netfsQueueCap n.rxQueue n.rxHead.toNat n.rxCount.toNat).map shownPacket

@[simp] theorem length_rxEntries (n : Netfs) : (rxEntries n).length = n.rxCount.toNat := by
  simp [rxEntries]

theorem length_payload (p : NetPacket) : p.payload.length = p.len.toNat := by
  rw [NetPacket.payload, List.length_take, Block.length_bytes, Nat.min_eq_left p.fits]

/-- The packets as `netfs_render_path` goes through them. -/
theorem rxEntries_eq {n : Netfs} (h : Rings n) : rxEntries n =
    (List.range n.rxCount.toNat).map fun i => shownPacket (n.rxPacket (UInt32.ofNat i)) := by
  rw [rxEntries, window, List.map_map]
  refine List.map_congr_left fun i hi => ?_
  have hcount := h.rxCount
  have hqueue : netfsQueueCap = 32 := rfl
  have hi : i < n.rxCount.toNat := List.mem_range.mp hi
  have hindex : (UInt32.ofNat i).toNat = i :=
    UInt32.toNat_ofNat_of_lt' (show i < 4294967296 by omega)
  rw [Function.comp_apply, Netfs.rxPacket, slot_toNat h.rxHead (by omega), hindex]

/-- The queue and the counters are those of the log; `handed` ids have been handed out. -/
structure Inbox (log : List Arrival) (handed : Nat) (n : Netfs) : Prop where
  rings : Rings n
  ring : rxEntries n = newest netfsQueueCap (log.map Arrival.shown)
  numbers : (log.map Arrival.number).Pairwise (· < ·)
  below : ∀ a ∈ log, a.number ≤ handed
  next : n.nextPacketId = UInt64.ofNat (handed + 1)
  packets : n.stats.rxPackets = UInt64.ofNat log.length
  bytes : n.stats.rxBytes = UInt64.ofNat (log.map fun a => a.payload.length).sum
  dropped : n.stats.droppedPackets = UInt64.ofNat (log.length - netfsQueueCap)
  depth : n.stats.queueDepth = n.rxCount

section
variable {log : List Arrival} {handed : Nat} {d d' : Devices}

theorem Inbox.init (d : Devices) : Inbox [] 0 (booted d).net :=
  ⟨booted_rings d, rfl, List.Pairwise.nil, fun _ h => absurd h List.not_mem_nil, rfl, rfl, rfl, rfl,
    rfl⟩

/-- The queue is as long as it can be. -/
theorem Inbox.count (h : Inbox log handed d.net) :
    d.net.rxCount.toNat = min log.length netfsQueueCap := by
  rw [← length_rxEntries, h.ring, length_newest, List.length_map]

/-- The parts a send leaves alone. -/
structure RxKept (n n' : Netfs) : Prop where
  rxQueue : n'.rxQueue = n.rxQueue
  rxHead : n'.rxHead = n.rxHead
  rxCount : n'.rxCount = n.rxCount
  rxPackets : n'.stats.rxPackets = n.stats.rxPackets
  rxBytes : n'.stats.rxBytes = n.stats.rxBytes
  droppedPackets : n'.stats.droppedPackets = n.stats.droppedPackets
  queueDepth : n'.stats.queueDepth = n.stats.queueDepth

theorem Inbox.kept {n n' : Netfs} (h : Inbox log handed n) (hkept : RxKept n n') (hrings : Rings n')
    {handed' : Nat} (hmore : handed ≤ handed') (hnext : n'.nextPacketId = UInt64.ofNat (handed' + 1)) :
    Inbox log handed' n' where
  rings := hrings
  ring := by
    rw [rxEntries, hkept.rxQueue, hkept.rxHead, hkept.rxCount]
    exact h.ring
  numbers := h.numbers
  below a ha := (h.below a ha).trans hmore
  next := hnext
  packets := hkept.rxPackets.trans h.packets
  bytes := hkept.rxBytes.trans h.bytes
  dropped := hkept.droppedPackets.trans h.dropped
  depth := by rw [hkept.queueDepth, hkept.rxCount, h.depth]

/-- Making room: the oldest packet goes when there is none. -/
theorem rxEntries_makeRoom {n : Netfs} (h : Rings n) : rxEntries n.makeRoom =
    if (rxEntries n).length = netfsQueueCap then (rxEntries n).drop 1 else rxEntries n := by
  rw [length_rxEntries]
  by_cases hfull : n.rxCount = UInt32.ofNat netfsQueueCap
  · have hcount : n.rxCount.toNat = netfsQueueCap := full_iff.mp hfull
    have hpred : (n.rxCount - 1).toNat = netfsQueueCap - 1 := by
      rw [pred_toNat (by rw [hfull]; decide), hcount]
    have hfirst : window netfsQueueCap n.rxQueue n.rxHead.toNat netfsQueueCap =
        n.rxQueue (n.rxHead.toNat % netfsQueueCap) ::
          window netfsQueueCap n.rxQueue ((n.rxHead.toNat + 1) % netfsQueueCap) 31 := window_succ _ _ _
    rw [if_pos hcount, Netfs.makeRoom, if_pos hfull, rxEntries, rxEntries, hcount, hfirst]
    simp only
    rw [hpred, next_toNat h.rxHead, List.map_cons, List.drop_one, List.tail_cons]
    rfl
  · rw [if_neg fun hcount => hfull (full_iff.mpr hcount), Netfs.makeRoom, if_neg hfull]

/-- **A packet comes in.** -/
theorem Inbox.receive (h : Inbox log handed d.net) (data : List UInt8) (len : UInt32)
    (hlen : len.toNat ≤ data.length) :
    Inbox (log ++ [⟨handed + 1, (data.take len.toNat).take netfsMaxPayload⟩]) (handed + 1)
      (enqueueRxPacket data len d).net := by
  obtain ⟨-, hhead, hcount, hrings⟩ := makeRoom_spec h.rings
  obtain ⟨-, hrings', -⟩ := enqueueRxPacket_spec data len h.rings hlen
  have hclamp := clampLen_toNat len
  have htake : data.take (clampLen len).toNat = (data.take len.toNat).take netfsMaxPayload := by
    rw [hclamp, List.take_take, Nat.min_comm]
  have hslot := slot_toNat hhead hcount.le
  have hsucc := succ_toNat hcount
  have hroomNext : d.net.makeRoom.nextPacketId = UInt64.ofNat (handed + 1) := by
    rw [← h.next]
    unfold Netfs.makeRoom
    split <;> rfl
  -- the ring: the oldest goes if it is full, the newest comes behind
  have hring : rxEntries (enqueueRxPacket data len d).net = rxEntries d.net.makeRoom ++
      [(UInt64.ofNat (handed + 1), (data.take len.toNat).take netfsMaxPayload)] := by
    simp only [enqueueRxPacket, record_net, rxEntries]
    rw [hsucc, hslot, window_put _ _ _ hcount, List.map_append, List.map_singleton, shownPacket,
      payload_fill _ (by rw [hclamp]; omega), htake]
    rw [NetPacket.fill, hroomNext]
  have hcut : (clampLen len).toUInt64 =
      UInt64.ofNat ((data.take len.toNat).take netfsMaxPayload).length := by
    rw [← htake, List.length_take, Nat.min_eq_left (by rw [hclamp]; omega),
      UInt64.ofNat_uInt32ToNat]
  -- the counter of what was dropped goes up when the queue is full, and not before
  have hdropped : d.net.makeRoom.stats.droppedPackets =
      UInt64.ofNat (log.length + 1 - netfsQueueCap) := by
    have hlength := h.count
    unfold Netfs.makeRoom
    split
    · rename_i hfull
      have hcount := full_iff.mp hfull
      have hmore : log.length + 1 - netfsQueueCap = log.length - netfsQueueCap + 1 := by omega
      rw [hmore, UInt64.ofNat_add]
      exact congrArg (· + 1) h.dropped
    · rename_i hfull
      have hcount : d.net.rxCount.toNat ≠ netfsQueueCap := fun hc => hfull (full_iff.mpr hc)
      have hless : log.length + 1 - netfsQueueCap = log.length - netfsQueueCap := by omega
      rw [hless]
      exact h.dropped
  have hstats : d.net.makeRoom.stats.rxPackets = d.net.stats.rxPackets ∧
      d.net.makeRoom.stats.rxBytes = d.net.stats.rxBytes := by
    unfold Netfs.makeRoom
    split <;> exact ⟨rfl, rfl⟩
  refine ⟨hrings', ?_, ?_, ?_, ?_, ?_, ?_, ?_, rfl⟩
  · rw [hring, List.map_append, List.map_singleton, newest_append_singleton (by decide), ← h.ring,
      rxEntries_makeRoom h.rings]
    rfl
  · rw [List.map_append, List.map_singleton, List.pairwise_append]
    refine ⟨h.numbers, List.pairwise_singleton _ _, fun a ha b hb => ?_⟩
    obtain ⟨e, he, rfl⟩ := List.mem_map.mp ha
    rw [List.mem_singleton.mp hb]
    exact Nat.lt_succ_of_le (h.below e he)
  · intro a ha
    rcases List.mem_append.mp ha with hold | hnew
    · exact (h.below a hold).trans (Nat.le_succ handed)
    · rw [List.mem_singleton.mp hnew]
  · show d.net.makeRoom.nextPacketId + 1 = _
    rw [hroomNext, ← UInt64.ofNat_one, ← UInt64.ofNat_add]
  · show d.net.makeRoom.stats.rxPackets + 1 = _
    rw [hstats.1, h.packets, List.length_append, List.length_singleton, UInt64.ofNat_add]
    rfl
  · show d.net.makeRoom.stats.rxBytes + (clampLen len).toUInt64 = _
    rw [hstats.2, h.bytes, hcut, List.map_append, List.sum_append, UInt64.ofNat_add]
    simp
  · show d.net.makeRoom.stats.droppedPackets = _
    rw [hdropped, List.length_append, List.length_singleton]

/-! ## What a call carries -/

/-- From `d` to `d'` the payloads `ps` went out, and came in again if loopback is on;
    `queued` packets took an id and stayed in the send queue. -/
structure Carries (ps : List (List UInt8)) (queued : Nat) (d d' : Devices) : Prop where
  sent : d'.sent = d.sent ++ ps
  loopback : d'.net.stats.loopbackEnabled = d.net.stats.loopbackEnabled
  inbox : ∀ {log handed}, Inbox log handed d.net →
    ∃ more, Inbox (log ++ more) (handed + more.length + queued) d'.net ∧
      more.map Arrival.payload =
        if d.net.stats.loopbackEnabled != 0 then ps.map (·.take netfsMaxPayload) else []

theorem Carries.trans {d'' : Devices} {ps qs : List (List UInt8)} {s t : Nat}
    (h : Carries ps s d d') (h' : Carries qs t d' d'') : Carries (ps ++ qs) (s + t) d d'' where
  sent := by rw [h'.sent, h.sent, List.append_assoc]
  loopback := h'.loopback.trans h.loopback
  inbox {log handed} hinbox := by
    obtain ⟨more, hmore, hpayloads⟩ := h.inbox hinbox
    obtain ⟨more', hmore', hpayloads'⟩ := h'.inbox hmore
    refine ⟨more ++ more', ?_, ?_⟩
    · rw [← List.append_assoc, List.length_append,
        show handed + (more.length + more'.length) + (s + t) =
          handed + more.length + s + more'.length + t by omega]
      exact hmore'
    · rw [List.map_append, hpayloads, hpayloads', h.loopback, List.map_append]
      split <;> rfl

/-- Nothing is sent, nothing comes in. -/
theorem Carries.quiet {queued : Nat} (hsent : d'.sent = d.sent)
    (hloopback : d'.net.stats.loopbackEnabled = d.net.stats.loopbackEnabled)
    (hkept : RxKept d.net d'.net) (hrings : Rings d'.net)
    (hnext : d'.net.nextPacketId = d.net.nextPacketId + UInt64.ofNat queued) :
    Carries [] queued d d' where
  sent := by rw [hsent, List.append_nil]
  loopback := hloopback
  inbox hinbox := by
    refine ⟨[], ?_, ?_⟩
    · rw [List.append_nil]
      refine hinbox.kept hkept hrings (by omega) ?_
      rw [hnext, hinbox.next, ← UInt64.ofNat_add, Nat.add_right_comm]
      rfl
    · split <;> rfl

theorem Carries.refl (h : Rings d.net) : Carries [] 0 d d :=
  .quiet rfl rfl ⟨rfl, rfl, rfl, rfl, rfl, rfl, rfl⟩ h (UInt64.add_zero _).symm

theorem transmitNow_carries (data : List UInt8) (len : UInt32) (h : Rings d.net)
    (hlen : len.toNat ≤ data.length) :
    Carries [data.take len.toNat] 0 d (transmitNow data len d) := by
  let d₁ : Devices := { d with
    net := { d.net with stats := { d.net.stats with
      txPackets := d.net.stats.txPackets + 1
      txBytes := d.net.stats.txBytes + len.toUInt64 } }
    sent := d.sent ++ [data.take len.toNat] }
  have hrings : Rings d₁.net := ⟨h.rxHead, h.rxCount, h.txHead, h.txCount⟩
  have hkept : RxKept d.net d₁.net := ⟨rfl, rfl, rfl, rfl, rfl, rfl, rfl⟩
  have hcounted : ∀ {log handed}, Inbox log handed d.net → Inbox log handed d₁.net :=
    fun hinbox => hinbox.kept hkept hrings le_rfl hinbox.next
  by_cases hloop : d.net.stats.loopbackEnabled != 0
  · have hrun : transmitNow data len d =
        enqueueRxPacket data len (d₁.record .net 0 netEventTx len.toUInt64) := if_pos hloop
    have hroom : d₁.net.makeRoom.stats.loopbackEnabled = d.net.stats.loopbackEnabled := by
      unfold Netfs.makeRoom
      split <;> rfl
    rw [hrun]
    refine ⟨rfl, hroom, fun {log handed} hinbox =>
      ⟨[⟨handed + 1, (data.take len.toNat).take netfsMaxPayload⟩], ?_, ?_⟩⟩
    · exact Inbox.receive (d := d₁.record .net 0 netEventTx len.toUInt64) (hcounted hinbox) data len
        hlen
    · rw [if_pos hloop]
      rfl
  · have hrun : transmitNow data len d = d₁.record .net 0 netEventTx len.toUInt64 := if_neg hloop
    rw [hrun]
    refine ⟨rfl, rfl, fun hinbox => ⟨[], ?_, ?_⟩⟩
    · rw [List.append_nil]
      exact hcounted hinbox
    · rw [if_neg hloop]
      rfl

/-- One round of a flush. -/
theorem flushOne_carries (h : Rings d.net) {n : Nat} (hn : d.net.txCount.toNat = n + 1)
    (flushed : UInt32 × UInt32) : ∃ ps, Carries ps 0 d (flushOne flushed d).2 := by
  let pkt := d.net.txQueue d.net.txHead.toNat
  obtain ⟨-, -, -, hrings, -⟩ := flushOne_spec h hn flushed
  have hsend := transmitNow_carries pkt.data.bytes pkt.len h
    (by rw [Block.length_bytes]; exact pkt.fits)
  have hleave : Carries [] 0 (transmitNow pkt.data.bytes pkt.len d) (flushOne flushed d).2 := by
    refine Carries.quiet ?_ ?_ ?_ hrings ?_
    · rfl
    · rfl
    · exact ⟨rfl, rfl, rfl, rfl, rfl, rfl, rfl⟩
    · exact (UInt64.add_zero _).symm
  exact ⟨_, hsend.trans hleave⟩

theorem flushLoop_carries : ∀ (n : Nat) {d : Devices} (flushed : UInt32 × UInt32), Rings d.net →
    d.net.txCount.toNat = n → ∃ ps, Carries ps 0 d (flushLoop n flushed d).2 := by
  intro n
  induction n with
  | zero =>
    intro d flushed h hn
    exact ⟨[], .refl h⟩
  | succ n ih =>
    intro d flushed h hn
    obtain ⟨-, -, -, hrings, hcount, -⟩ := flushOne_spec h hn flushed
    obtain ⟨ps, hone⟩ := flushOne_carries h hn flushed
    obtain ⟨qs, hrest⟩ := ih (flushOne flushed d).1 hrings hcount
    exact ⟨ps ++ qs, hone.trans hrest⟩

theorem flushTxQueue_carries (h : Rings d.net) : ∃ ps, Carries ps 0 d (flushTxQueue d) := by
  obtain ⟨ps, hloop⟩ := flushLoop_carries d.net.txCount.toNat (0, 0) h rfl
  obtain ⟨hnet, hsent, -⟩ := flushEnd_kept (flushLoop d.net.txCount.toNat (0, 0) d).1
    (flushLoop d.net.txCount.toNat (0, 0) d).2
  have hrings := (flushTxQueue_spec h).rings
  rw [show flushTxQueue d = flushEnd (flushLoop d.net.txCount.toNat (0, 0) d).1
    (flushLoop d.net.txCount.toNat (0, 0) d).2 from rfl] at hrings ⊢
  have hend : Carries [] 0 (flushLoop d.net.txCount.toNat (0, 0) d).2 (flushEnd
      (flushLoop d.net.txCount.toNat (0, 0) d).1 (flushLoop d.net.txCount.toNat (0, 0) d).2) := by
    refine .quiet hsent ?_ ?_ hrings ?_
    · rw [hnet]
    · rw [hnet]
      exact ⟨rfl, rfl, rfl, rfl, rfl, rfl, rfl⟩
    · rw [hnet]
      exact (UInt64.add_zero _).symm
  exact ⟨_, hloop.trans hend⟩

theorem enqueueTxPacket_carries {data : List UInt8} {len : UInt32} (hrings : Rings d'.net)
    (hrun : enqueueTxPacket data len d = some d') : Carries [] 1 d d' := by
  simp only [enqueueTxPacket] at hrun
  split at hrun
  · cases hrun
  · obtain rfl := Option.some.inj hrun
    refine Carries.quiet ?_ ?_ ?_ hrings ?_
    · rfl
    · rfl
    · exact ⟨rfl, rfl, rfl, rfl, rfl, rfl, rfl⟩
    · exact congrArg (d.net.nextPacketId + ·) UInt64.ofNat_one.symm

/-- A queued write takes an id; it may flush on either side. -/
theorem netfsQueueTx_carries (h : Rings d.net) (data : List UInt8) :
    ∃ ps, Carries ps 1 d (netfsQueueTx data d).2 := by
  have hbatch : ∀ {d₁ : Devices}, Rings d₁.net → ∃ ps, Carries ps 0 d₁
      (if d₁.net.txCount ≥ powerNetBatchLimit d₁.power then flushTxQueue d₁ else d₁) := by
    intro d₁ hrings
    split
    · exact flushTxQueue_carries hrings
    · exact ⟨[], .refl hrings⟩
  by_cases hfull : d.net.txCount.toNat = netfsQueueCap
  · have hflushed := flushTxQueue_spec h
    obtain ⟨ps, hflush⟩ := flushTxQueue_carries h
    obtain ⟨d₁, hrun, henqueued⟩ := enqueueTxPacket_spec hflushed.rings (ofNat_length_le data)
      (by rw [hflushed.count]; decide)
    obtain ⟨qs, hlimit⟩ := hbatch henqueued.rings
    have hwhole := (hflush.trans (enqueueTxPacket_carries henqueued.rings hrun)).trans hlimit
    rw [netfsQueueTx, enqueueTxPacket_full hfull]
    simp only [hrun]
    exact ⟨_, hwhole⟩
  · obtain ⟨d₁, hrun, henqueued⟩ := enqueueTxPacket_spec h (ofNat_length_le data)
      (Nat.lt_of_le_of_ne h.txCount hfull)
    obtain ⟨qs, hlimit⟩ := hbatch henqueued.rings
    have hwhole := (enqueueTxPacket_carries henqueued.rings hrun).trans hlimit
    rw [netfsQueueTx]
    simp only [hrun]
    exact ⟨_, hwhole⟩

/-- A tick carries what a flush does. -/
theorem powerTickHook_carries (h : Rings d.net) : ∃ ps, Carries ps 0 d (powerTickHook d) := by
  have hquiet : ∀ {d₁ : Devices}, KeysMoved d d₁ → Carries [] 0 d d₁ := fun hmoved => by
    have hrings := h
    rw [← hmoved.net] at hrings
    refine .quiet hmoved.sent ?_ ?_ hrings ?_
    · rw [hmoved.net]
    · rw [hmoved.net]
      exact ⟨rfl, rfl, rfl, rfl, rfl, rfl, rfl⟩
    · rw [hmoved.net]
      exact (UInt64.add_zero _).symm
  rcases powerTickHook_spec d with ⟨-, hmoved⟩ | ⟨-, -, d₁, hmoved, hrun⟩
  · exact ⟨[], hquiet hmoved⟩
  · have hrings : Rings d₁.net := by
      rw [hmoved.net]
      exact h
    obtain ⟨ps, hflush⟩ := flushTxQueue_carries hrings
    have hcarries := (hquiet hmoved).trans hflush
    rw [hrun]
    exact ⟨_, hcarries.sent, hcarries.loopback, hcarries.inbox⟩

theorem powerSetMode_kept (mode : UInt32) (d : Devices) :
    (powerSetMode mode d).net = d.net ∧ (powerSetMode mode d).sent = d.sent := by
  unfold powerSetMode
  split <;> exact ⟨rfl, rfl⟩

/-! ## A run -/

/-- The payloads that come in while the call runs: what is injected, and what goes out while
    loopback is on. -/
def NetOp.arrives (op : NetOp) (d : Devices) : List (List UInt8) :=
  match op with
  | .inject data => [written data]
  | op => if d.net.stats.loopbackEnabled != 0 then (op.run d).2.sent.drop d.sent.length else []

/-- The log has grown by what came in during the call, and at most one id went elsewhere. -/
def Logs (op : NetOp) (log : List Arrival) (handed : Nat) (d : Devices) : Prop :=
  ∃ more ids, ids ≤ op.writes.length ∧
    Inbox (log ++ more) (handed + more.length + ids) (op.run d).2.net ∧
    more.map Arrival.payload = (op.arrives d).map (·.take netfsMaxPayload)

theorem Carries.logs {ps : List (List UInt8)} {queued : Nat} {op : NetOp}
    (h : Carries ps queued d (op.run d).2) (hop : ∀ data, op ≠ .inject data)
    (hids : queued ≤ op.writes.length) (hinbox : Inbox log handed d.net) : Logs op log handed d := by
  obtain ⟨more, hmore, hpayloads⟩ := h.inbox hinbox
  have harrives : op.arrives d =
      if d.net.stats.loopbackEnabled != 0 then (op.run d).2.sent.drop d.sent.length else [] := by
    cases op with
    | inject data => exact absurd rfl (hop data)
    | _ => rfl
  refine ⟨more, queued, hids, hmore, ?_⟩
  rw [hpayloads, harrives, h.sent, List.drop_left]
  split <;> rfl

/-- **One call** adds to the log what comes in. -/
theorem Inbox.step (h : Inbox log handed d.net) (op : NetOp) : Logs op log handed d := by
  cases op with
  | tx data =>
    by_cases hmode : d.power.mode = powerModePerformance
    · have hrun : ((NetOp.tx data).run d).2 = transmitNow data (UInt32.ofNat data.length) d := by
        rw [NetOp.run, netfsWritePath_tx, if_pos hmode]
      have hsend := transmitNow_carries data _ h.rings (ofNat_length_le data)
      rw [← hrun] at hsend
      exact hsend.logs (fun _ hop => by cases hop) (Nat.zero_le 1) h
    · have hrun : ((NetOp.tx data).run d).2 = (netfsQueueTx data d).2 := by
        rw [NetOp.run, netfsWritePath_tx, if_neg hmode]
      obtain ⟨ps, hqueue⟩ := netfsQueueTx_carries h.rings data
      rw [← hrun] at hqueue
      exact hqueue.logs (fun _ hop => by cases hop) le_rfl h
  | inject data => exact ⟨_, 0, Nat.zero_le _, h.receive data _ (ofNat_length_le data), rfl⟩
  | loopback data =>
    -- the switch may be thrown, but nothing is sent
    have hrings := netRun_rings h.rings [.loopback data]
    have hkept : RxKept d.net ((NetOp.loopback data).run d).2.net ∧
        ((NetOp.loopback data).run d).2.sent = d.sent ∧
        ((NetOp.loopback data).run d).2.net.nextPacketId = d.net.nextPacketId := by
      rw [NetOp.run, netfsWritePath, if_pos rfl]
      split <;> exact ⟨⟨rfl, rfl, rfl, rfl, rfl, rfl, rfl⟩, rfl, rfl⟩
    have harrives : (NetOp.loopback data).arrives d = [] := by simp [NetOp.arrives, hkept.2.1]
    refine ⟨[], 0, le_rfl, ?_, ?_⟩
    · rw [List.append_nil]
      exact h.kept hkept.1 hrings le_rfl (hkept.2.2.trans h.next)
    · rw [harrives]
      rfl
  | flush =>
    obtain ⟨ps, hflush⟩ := flushTxQueue_carries h.rings
    exact Carries.logs hflush (fun _ hop => by cases hop) le_rfl h
  | tick =>
    obtain ⟨ps, htick⟩ := powerTickHook_carries h.rings
    exact Carries.logs htick (fun _ hop => by cases hop) le_rfl h
  | setMode mode =>
    obtain ⟨hnet, hsent⟩ := powerSetMode_kept mode d
    have hquiet : Carries [] 0 d ((NetOp.setMode mode).run d).2 := by
      have hrings := h.rings
      rw [← hnet] at hrings
      refine .quiet hsent ?_ ?_ hrings ?_
      · rw [NetOp.run, hnet]
      · rw [NetOp.run, hnet]
        exact ⟨rfl, rfl, rfl, rfl, rfl, rfl, rfl⟩
      · rw [NetOp.run, hnet]
        exact (UInt64.add_zero _).symm
    exact hquiet.logs (fun _ hop => by cases hop) le_rfl h

end

/-! ## What the queue shows

The queue shows the newest of the log, as many as it has room for. What was pushed out of it is
gone, and only the counters know of it.
-/

end Proof
end BumbelBee
