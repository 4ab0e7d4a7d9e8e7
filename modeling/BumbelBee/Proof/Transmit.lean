import Mathlib.Algebra.Order.BigOperators.Group.List
import BumbelBee.Proof.NetSpec

/-!
# What becomes of a write to `/net/tx`

Whatever happens to the driver between its start and now, the payloads it accepted are the
ones it sent and the ones still queued (`transmit_conservation`), the power manager's
counters say how many. They are sent in the order they were accepted as long as nobody writes
in performance mode past a queue (`transmit_order`). And batching is no more than a delay:
what the line will have seen once the queue is sent is what it would have seen had every
payload been sent at once (`batching_refines_immediate`).

The three results are about one run looked at in different ways: as a multiset, as a list, and as
what is on the line in the end. Only the second needs a condition. Performance mode sends at once
and does not look at the queue, so a payload that was queued before the switch is overtaken.
-/

namespace BumbelBee
namespace Proof

open Lib Kernel

/-! ## Runs

`accepted` is read off the results of the calls, and what was sent off the line, so the results are
about what a caller and a listener see. The state of the driver is in none of the statements but as
the place where the rest is.
-/

inductive NetOp
  | tx (data : List UInt8)
  | inject (data : List UInt8)
  | loopback (data : List UInt8)
  | flush
  | tick
  | setMode (mode : UInt32)
deriving DecidableEq, Repr

def NetOp.run : NetOp → Devices → Int × Devices
  | .tx data, d => netfsWritePath (cstr "/net/tx") data d
  | .inject data, d => netfsWritePath (cstr "/net/rx/inject") data d
  | .loopback data, d => netfsWritePath (cstr "/net/config/loopback") data d
  | .flush, d => (0, netfsFlushTx d)
  | .tick, d => (0, powerTickHook d)
  | .setMode mode, d => (0, powerSetMode mode d)

def netRun (ops : List NetOp) (d : Devices) : Devices := ops.foldl (fun d op => (op.run d).2) d

/-- The payload the call accepts: that of a write to `/net/tx` that returns 0. -/
def NetOp.accepts (op : NetOp) (d : Devices) : List (List UInt8) :=
  match op with
  | .tx data => if (op.run d).1 = 0 then [data] else []
  | _ => []

/-- The payloads accepted in a run, in order. -/
def accepted : List NetOp → Devices → List (List UInt8)
  | [], _ => []
  | op :: ops, d => op.accepts d ++ accepted ops (op.run d).2

/-- The drivers as `power_init` and `netfs_init` leave them. -/
def booted (d : Devices) : Devices := { netfsInit (powerInit d) with sent := [] }

/-- No payload of the run is longer than a packet. -/
def FitsPackets (ops : List NetOp) : Prop := ∀ data, NetOp.tx data ∈ ops → data.length ≤ netfsMaxPayload

/-! ## What a call can do

Every call is a few steps of the link and the queue: a payload is sent at once, one is queued with
room made before and a flush behind, the queue is flushed, or nothing happens. The rest of this file
goes by these cases.
-/

/-- **One call**, by what it does to the line and to the queue. -/
inductive NetStep (d : Devices) : NetOp → Int → Devices → Prop
  | sent {data d'} : d.power.mode = powerModePerformance →
      link d' = (link d).send (written data) → Rings d'.net → TxKept d d' →
      NetStep d (.tx data) 0 d'
  | queued {data d₀ d₁} : d.power.mode ≠ powerModePerformance →
      (d₀ = d ∨ d.net.txCount.toNat = netfsQueueCap ∧ Flushed d d₀) →
      Enqueued ((written data).take netfsMaxPayload) d₀ d₁ →
      d₁.net.txCount < powerNetBatchLimit d₁.power → NetStep d (.tx data) 0 d₁
  | queuedAndFlushed {data d₀ d₁ d'} : d.power.mode ≠ powerModePerformance →
      (d₀ = d ∨ d.net.txCount.toNat = netfsQueueCap ∧ Flushed d d₀) →
      Enqueued ((written data).take netfsMaxPayload) d₀ d₁ → Flushed d₁ d' →
      NetStep d (.tx data) 0 d'
  | injected {data d'} : link d' = (link d).receive (written data) → Rings d'.net → TxKept d d' →
      NetStep d (.inject data) 0 d'
  | loopback {data r d'} {enabled : Bool} : link d' = { link d with loopback := enabled } →
      Rings d'.net → TxKept d d' → NetStep d (.loopback data) r d'
  | flushed {d'} : Flushed d d' → NetStep d .flush 0 d'
  | keys {d'} : KeysMoved d d' → NetStep d .tick 0 d'
  | tickFlushed {d₁ d'} : d.power.mode ≠ powerModePerformance → KeysMoved d d₁ →
      Flushed d₁ d' → NetStep d .tick 0
        { d' with power := { d'.power with ticksSinceFlush := 0 } }
  | mode {mode d'} : d'.net = d.net → d'.sent = d.sent →
      d'.power.stats.pendingTxPackets = d.power.stats.pendingTxPackets →
      d'.power.stats.pendingTxBytes = d.power.stats.pendingTxBytes →
      d'.power.stats.netTxEnqueued = d.power.stats.netTxEnqueued →
      d'.power.stats.netTxFlushed = d.power.stats.netTxFlushed →
      d'.power.mode = (if mode > powerModeEnergySaver then d.power.mode else mode) →
      NetStep d (.setMode mode) 0 d'

theorem NetOp.run_step {d : Devices} (h : Rings d.net) (op : NetOp) :
    NetStep d op (op.run d).1 (op.run d).2 := by
  cases op with
  | tx data =>
    rw [NetOp.run, netfsWritePath_tx]
    by_cases hmode : d.power.mode = powerModePerformance
    · obtain ⟨hlink, hrings, hkept⟩ := transmitNow_spec data _ h (ofNat_length_le data)
      rw [if_pos hmode]
      exact .sent hmode hlink hrings hkept
    · obtain ⟨d₀, d₁, hroom, henqueued, hrun⟩ := netfsQueueTx_spec h data
      rw [if_neg hmode, hrun]
      by_cases hlimit : d₁.net.txCount ≥ powerNetBatchLimit d₁.power
      · rw [if_pos hlimit]
        exact .queuedAndFlushed hmode hroom henqueued (flushTxQueue_spec henqueued.rings)
      · rw [if_neg hlimit]
        exact .queued hmode hroom henqueued (UInt32.not_le.mp hlimit)
  | inject data =>
    obtain ⟨hlink, hrings, hkept⟩ := enqueueRxPacket_spec data _ h (ofNat_length_le data)
    rw [NetOp.run, netfsWritePath, if_neg (by decide), if_pos rfl]
    exact .injected hlink hrings hkept
  | loopback data =>
    have hrings : ∀ enabled, Rings { d.net with stats := { d.net.stats with
        loopbackEnabled := enabled } } := fun _ => ⟨h.rxHead, h.rxCount, h.txHead, h.txCount⟩
    rw [NetOp.run, netfsWritePath, if_pos rfl]
    split
    · exact .loopback rfl (hrings _) ⟨rfl, rfl, rfl, rfl, rfl, rfl⟩
    · exact .loopback rfl h ⟨rfl, rfl, rfl, rfl, rfl, rfl⟩
  | flush => exact .flushed (flushTxQueue_spec h)
  | tick =>
    obtain ⟨-, hmoved⟩ | ⟨-, hmode, d₁, hmoved, hrun⟩ := powerTickHook_spec d
    · exact .keys hmoved
    · rw [NetOp.run, hrun]
      exact .tickFlushed hmode hmoved (flushTxQueue_spec (by rw [hmoved.net]; exact h))
  | setMode mode =>
    simp only [NetOp.run, powerSetMode]
    split
    · rename_i hbad
      exact .mode rfl rfl rfl rfl rfl rfl (if_pos hbad).symm
    · rename_i hgood
      exact .mode rfl rfl rfl rfl rfl rfl (if_neg hgood).symm

theorem link_tickFlushed {d d₁ d' : Devices} (h : KeysMoved d d₁) (hf : Flushed d₁ d') :
    link { d' with power := { d'.power with ticksSinceFlush := 0 } } =
      (link d).sendAll (payloads d.net) := by
  have hlink : link d₁ = link d := by rw [link, link, h.sent, h.net]
  rw [← hlink, ← h.net]
  exact hf.link

/-- The rings stay rings. -/
theorem NetStep.rings {d d' : Devices} {op : NetOp} {r : Int} (h : Rings d.net)
    (hstep : NetStep d op r d') : Rings d'.net := by
  cases hstep with
  | sent _ _ hrings _ => exact hrings
  | queued _ _ henqueued _ => exact henqueued.rings
  | queuedAndFlushed _ _ _ hflushed => exact hflushed.rings
  | injected _ hrings _ => exact hrings
  | loopback _ hrings _ => exact hrings
  | flushed hflushed => exact hflushed.rings
  | keys hmoved => rw [hmoved.net]; exact h
  | tickFlushed _ _ hflushed => exact hflushed.rings
  | mode hnet => rw [hnet]; exact h

/-- What the call writes to `/net/tx`. -/
def NetOp.writes : NetOp → List (List UInt8)
  | .tx data => [data]
  | _ => []

/-- No write is refused. -/
theorem NetStep.accepted {d d' : Devices} {data : List UInt8} {r : Int}
    (hstep : NetStep d (.tx data) r d') : r = 0 := by
  cases hstep <;> rfl

theorem NetOp.accepts_eq {d : Devices} (h : Rings d.net) (op : NetOp) :
    op.accepts d = op.writes := by
  cases op with
  | tx data => exact if_pos (NetOp.run_step h (.tx data)).accepted
  | _ => rfl

/-- Each call of the run is made in a state that allows it. -/
def EachOp (allowed : NetOp → Devices → Prop) : List NetOp → Devices → Prop
  | [], _ => True
  | op :: ops, d => allowed op d ∧ EachOp allowed ops (op.run d).2

theorem eachOp_of_forall {allowed : NetOp → Devices → Prop} : ∀ {ops : List NetOp} {d : Devices},
    (∀ op ∈ ops, ∀ d, allowed op d) → EachOp allowed ops d
  | [], _, _ => True.intro
  | op :: _, d, h => ⟨h op List.mem_cons_self d,
      eachOp_of_forall fun op' hop' => h op' (List.mem_cons_of_mem _ hop')⟩

/-- **The run rule.** The invariant may speak of the payloads accepted so far. -/
theorem netRun_keeps (allowed : NetOp → Devices → Prop)
    (inv : List (List UInt8) → Devices → Prop)
    (hrings : ∀ {acc d}, inv acc d → Rings d.net)
    (hstep : ∀ {acc d op r d'}, inv acc d → allowed op d → NetStep d op r d' →
      inv (acc ++ op.writes) d') :
    ∀ (ops : List NetOp) (acc : List (List UInt8)) {d : Devices}, inv acc d →
      EachOp allowed ops d → inv (acc ++ accepted ops d) (netRun ops d) := by
  intro ops
  induction ops with
  | nil =>
    intro acc d h _
    rw [accepted, List.append_nil]
    exact h
  | cons op ops ih =>
    intro acc d h hallowed
    have hnext := hstep h hallowed.1 (NetOp.run_step (hrings h) op)
    have hrun := ih _ hnext hallowed.2
    rw [List.append_assoc, ← NetOp.accepts_eq (hrings h) op] at hrun
    exact hrun

theorem booted_rings (d : Devices) : Rings (booted d).net :=
  ⟨Nat.zero_lt_succ _, Nat.zero_le _, Nat.zero_lt_succ _, Nat.zero_le _⟩

theorem netRun_rings {d : Devices} (h : Rings d.net) (ops : List NetOp) : Rings (netRun ops d).net :=
  netRun_keeps (fun _ _ => True) (fun _ d => Rings d.net) id (fun h _ hstep => hstep.rings h)
    ops [] h (eachOp_of_forall fun _ _ _ => True.intro)

/-! ## Conservation

The counters wrap and the lists do not, so the equations between them are of 64-bit numbers. The
number of payloads that are queued is small, and is one of them.
-/

/-- **What is accepted is kept**, and counted: `acc` are the payloads accepted so far. -/
structure Conserved (acc : List (List UInt8)) (d : Devices) : Prop where
  rings : Rings d.net
  /-- Each accepted payload has been sent, or is queued. -/
  payloads : (d.sent ++ payloads d.net).Perm acc
  txPackets : d.net.stats.txPackets = UInt64.ofNat acc.length - d.net.txCount.toUInt64
  enqueued : d.power.stats.netTxEnqueued =
    d.power.stats.netTxFlushed + d.net.txCount.toUInt64
  pendingPackets : d.power.stats.pendingTxPackets = d.net.txCount
  pendingBytes : d.power.stats.pendingTxBytes = d.net.txPendingBytes
  bytes : d.net.txPendingBytes.toNat = ((Proof.payloads d.net).map List.length).sum

variable {acc : List (List UInt8)} {d d' : Devices} {p : List UInt8}

theorem payload_length_le (p : NetPacket) : p.payload.length ≤ netfsMaxPayload := by
  rw [NetPacket.payload, List.length_take]
  exact (Nat.min_le_left _ _).trans p.fits

/-- A queue is never too long for its bytes to be counted. -/
theorem queuedBytes_le (n : Netfs) :
    ((payloads n).map List.length).sum ≤ n.txCount.toNat * netfsMaxPayload := by
  have hsum := List.sum_le_card_nsmul ((payloads n).map List.length) netfsMaxPayload (by
    intro len hlen
    rw [payloads, List.map_map, List.mem_map] at hlen
    obtain ⟨p, -, rfl⟩ := hlen
    exact payload_length_le p)
  rw [List.length_map, length_payloads] at hsum
  exact hsum

/-- The queue and its books stay; what was sent, and accepted, may have grown. -/
theorem Conserved.queueKept {acc' : List (List UInt8)} (h : Conserved acc d)
    (hrings : Rings d'.net) (hkept : TxKept d d')
    (hpayloads : (d'.sent ++ Proof.payloads d'.net).Perm acc')
    (htx : d'.net.stats.txPackets = UInt64.ofNat acc'.length - d'.net.txCount.toUInt64) :
    Conserved acc' d' := by
  refine ⟨hrings, hpayloads, htx, ?_, ?_, ?_, ?_⟩
  · rw [hkept.power, hkept.txCount]
    exact h.enqueued
  · rw [hkept.power, hkept.txCount]
    exact h.pendingPackets
  · rw [hkept.power, hkept.txPendingBytes]
    exact h.pendingBytes
  · rw [hkept.txPendingBytes, hkept.payloads]
    exact h.bytes

theorem Conserved.kept (h : Conserved acc d) (hrings : Rings d'.net) (hkept : TxKept d d')
    (hsent : d'.sent = d.sent) (htx : d'.net.stats.txPackets = d.net.stats.txPackets) :
    Conserved acc d' := by
  refine h.queueKept hrings hkept ?_ ?_
  · rw [hsent, hkept.payloads]
    exact h.payloads
  · rw [htx, hkept.txCount]
    exact h.txPackets

/-- A payload is sent at once. -/
theorem Conserved.sent (h : Conserved acc d) (hlink : link d' = (link d).send p)
    (hrings : Rings d'.net) (hkept : TxKept d d') : Conserved (acc ++ [p]) d' := by
  obtain ⟨hsent, htx⟩ := (link d).send_sent p
  have hsent' : d'.sent = d.sent ++ [p] := (congrArg Link.sent hlink).trans hsent
  have htx' : d'.net.stats.txPackets = d.net.stats.txPackets + 1 :=
    (congrArg Link.txPackets hlink).trans htx
  refine h.queueKept hrings hkept ?_ ?_
  · rw [hsent', hkept.payloads, List.append_assoc]
    exact (List.Perm.append_left _ List.perm_append_comm).trans
      (by rw [← List.append_assoc]; exact h.payloads.append_right [p])
  · rw [htx', hkept.txCount, h.txPackets, List.length_append, List.length_singleton,
      UInt64.ofNat_add]
    grind

/-- A payload is queued. -/
theorem Conserved.queued (h : Conserved acc d) (he : Enqueued p d d')
    (hp : p.length ≤ netfsMaxPayload) : Conserved (acc ++ [p]) d' := by
  have hsent : d'.sent = d.sent := congrArg Link.sent he.link
  have htx : d'.net.stats.txPackets = d.net.stats.txPackets := congrArg Link.txPackets he.link
  have hcount : d'.net.txCount.toUInt64 = d.net.txCount.toUInt64 + 1 := by
    rw [← UInt64.ofNat_uInt32ToNat, ← UInt64.ofNat_uInt32ToNat, he.count, UInt64.ofNat_add]
    rfl
  have hmax : netfsMaxPayload = 256 := rfl
  have hcap : netfsQueueCap = 32 := rfl
  refine ⟨he.rings, ?_, ?_, ?_, ?_, ?_, ?_⟩
  · rw [hsent, he.payloads, ← List.append_assoc]
    exact h.payloads.append_right [p]
  · rw [htx, hcount, h.txPackets, List.length_append, List.length_singleton, UInt64.ofNat_add]
    grind
  · rw [he.power, hcount]
    simp only
    rw [h.enqueued, UInt64.add_assoc]
  · rw [he.power]
  · rw [he.power]
  · -- 32 packets of 256 bytes do not fill a `u32`
    have hbound := queuedBytes_le d.net
    have hfew := h.rings.txCount
    have hbytes := h.bytes
    have hlen : (UInt32.ofNat p.length).toNat = p.length :=
      UInt32.toNat_ofNat_of_lt' (hp.trans_lt (by decide))
    rw [he.pendingBytes, he.payloads, List.map_append, List.sum_append, List.map_singleton,
      List.sum_singleton, UInt32.toNat_add, hlen, hbytes, Nat.mod_eq_of_lt]
    rw [hmax] at hbound hp
    omega

/-- The queue is flushed. -/
theorem Conserved.flushed (h : Conserved acc d) (hf : Flushed d d') : Conserved acc d' := by
  obtain ⟨hsent, htx⟩ := (link d).sendAll_sent (Proof.payloads d.net)
  have hsent' : d'.sent = d.sent ++ Proof.payloads d.net := (congrArg Link.sent hf.link).trans hsent
  have htx' : d'.net.stats.txPackets = d.net.stats.txPackets + d.net.txCount.toUInt64 := by
    have htx' := (congrArg Link.txPackets hf.link).trans htx
    rw [length_payloads, UInt64.ofNat_uInt32ToNat] at htx'
    exact htx'
  refine ⟨hf.rings, ?_, ?_, ?_, ?_, ?_, ?_⟩
  · rw [hsent', hf.payloads, List.append_nil]
    exact h.payloads
  · rw [htx', hf.count, h.txPackets, UInt64.sub_add_cancel]
    exact (UInt64.sub_zero _).symm
  · rw [hf.power, hf.count]
    simp only [flushedStats]
    split
    · rename_i h0
      rw [h.enqueued, h0]
    · rw [h.enqueued]
      exact (UInt64.add_zero _).symm
  · rw [hf.power, hf.count]
    simp only [flushedStats]
    split <;> rfl
  · rw [hf.power, hf.pendingBytes]
    simp only [flushedStats]
    split <;> rfl
  · rw [hf.pendingBytes, hf.payloads]
    rfl

/-- The power manager's business that is none of the network's. -/
theorem Conserved.other (h : Conserved acc d) (hnet : d'.net = d.net) (hsent : d'.sent = d.sent)
    (hpackets : d'.power.stats.pendingTxPackets = d.power.stats.pendingTxPackets)
    (hbytes : d'.power.stats.pendingTxBytes = d.power.stats.pendingTxBytes)
    (henqueued : d'.power.stats.netTxEnqueued = d.power.stats.netTxEnqueued)
    (hflushed : d'.power.stats.netTxFlushed = d.power.stats.netTxFlushed) : Conserved acc d' := by
  refine ⟨?_, ?_, ?_, ?_, ?_, ?_, ?_⟩
  · rw [hnet]; exact h.rings
  · rw [hnet, hsent]; exact h.payloads
  · rw [hnet]; exact h.txPackets
  · rw [hnet, henqueued, hflushed]; exact h.enqueued
  · rw [hnet, hpackets]; exact h.pendingPackets
  · rw [hnet, hbytes]; exact h.pendingBytes
  · rw [hnet]; exact h.bytes

theorem Conserved.keys (h : Conserved acc d) (hmoved : KeysMoved d d') : Conserved acc d' :=
  h.other hmoved.net hmoved.sent hmoved.pendingTxPackets hmoved.pendingTxBytes
    hmoved.netTxEnqueued hmoved.netTxFlushed

/-- Room is made, if there is none, and the payload queued. -/
theorem Conserved.roomQueued {d₀ : Devices} (h : Conserved acc d)
    (hroom : d₀ = d ∨ d.net.txCount.toNat = netfsQueueCap ∧ Flushed d d₀)
    (he : Enqueued p d₀ d') (hp : p.length ≤ netfsMaxPayload) : Conserved (acc ++ [p]) d' := by
  rcases hroom with rfl | ⟨-, hflushed⟩
  · exact h.queued he hp
  · exact (h.flushed hflushed).queued he hp

theorem Conserved.step {op : NetOp} {r : Int} (h : Conserved acc d)
    (hsize : ∀ data ∈ op.writes, data.length ≤ netfsMaxPayload) (hstep : NetStep d op r d') :
    Conserved (acc ++ op.writes) d' := by
  cases hstep with
  | @sent data _ _ hlink hrings hkept =>
    rw [written_of_le (hsize data List.mem_cons_self)] at hlink
    exact h.sent hlink hrings hkept
  | @queued data _ _ _ hroom henqueued _ =>
    have hdata := hsize data List.mem_cons_self
    rw [written_of_le hdata, List.take_of_length_le hdata] at henqueued
    exact h.roomQueued hroom henqueued hdata
  | @queuedAndFlushed data _ _ _ _ hroom henqueued hflushed =>
    have hdata := hsize data List.mem_cons_self
    rw [written_of_le hdata, List.take_of_length_le hdata] at henqueued
    exact (h.roomQueued hroom henqueued hdata).flushed hflushed
  | injected hlink hrings hkept =>
    obtain ⟨hsent, htx⟩ := (link d).receive_sent _
    simp only [NetOp.writes, List.append_nil]
    exact h.kept hrings hkept ((congrArg Link.sent hlink).trans hsent)
      ((congrArg Link.txPackets hlink).trans htx)
  | loopback hlink hrings hkept =>
    simp only [NetOp.writes, List.append_nil]
    exact h.kept hrings hkept (congrArg Link.sent hlink) (congrArg Link.txPackets hlink)
  | flushed hflushed =>
    simp only [NetOp.writes, List.append_nil]
    exact h.flushed hflushed
  | keys hmoved =>
    simp only [NetOp.writes, List.append_nil]
    exact h.keys hmoved
  | tickFlushed _ hmoved hflushed =>
    simp only [NetOp.writes, List.append_nil]
    exact ((h.keys hmoved).flushed hflushed).other rfl rfl rfl rfl rfl rfl
  | mode hnet hsent hpackets hbytes henqueued hflushed _ =>
    simp only [NetOp.writes, List.append_nil]
    exact h.other hnet hsent hpackets hbytes henqueued hflushed

/-- Behind every call fewer packets are queued than the largest batch. -/
theorem NetStep.few {op : NetOp} {r : Int} (hfew : d.net.txCount.toNat ≤ 15)
    (hstep : NetStep d op r d') : d'.net.txCount.toNat ≤ 15 := by
  cases hstep with
  | sent _ _ _ hkept => rw [hkept.txCount]; exact hfew
  | queued _ _ _ hlimit =>
    have hbounds := (powerNetBatchLimit_bounds d'.power).2
    rw [UInt32.lt_iff_toNat_lt] at hlimit
    omega
  | queuedAndFlushed _ _ _ hflushed => rw [hflushed.count]; exact Nat.zero_le _
  | injected _ _ hkept => rw [hkept.txCount]; exact hfew
  | loopback _ _ hkept => rw [hkept.txCount]; exact hfew
  | flushed hflushed => rw [hflushed.count]; exact Nat.zero_le _
  | keys hmoved => rw [hmoved.net]; exact hfew
  | @tickFlushed _ d' _ _ hflushed =>
    exact (congrArg UInt32.toNat hflushed.count).trans_le (Nat.zero_le _)
  | mode hnet => rw [hnet]; exact hfew

theorem Conserved.booted (d : Devices) : Conserved [] (booted d) :=
  ⟨booted_rings d, List.Perm.nil, (UInt64.sub_self 0).symm, (UInt64.add_zero 0).symm, rfl, rfl, rfl⟩

/-- **Conservation.** No write to `/net/tx` is refused; every payload accepted is queued or has
    been sent, once and with its bytes; fewer than 16 are queued, and every counter agrees.

    `d` is any state before the drivers' start and `ops` any calls, with ticks and switches of the
    mode among them. `hsize` is the bound the VFS puts on a write. -/
theorem transmit_conservation (d : Devices) (ops : List NetOp) (hsize : FitsPackets ops) :
    (∀ before data after, ops = before ++ .tx data :: after →
        ((NetOp.tx data).run (netRun before (booted d))).1 = 0) ∧
      Conserved (accepted ops (booted d)) (netRun ops (booted d)) ∧
      (netRun ops (booted d)).net.txCount.toNat ≤ 15 := by
  refine ⟨fun before data after _ => ?_, ?_⟩
  · exact (NetOp.run_step (netRun_rings (booted_rings d) before) (.tx data)).accepted
  · exact netRun_keeps
      (fun op _ => ∀ data ∈ op.writes, data.length ≤ netfsMaxPayload)
      (fun acc d => Conserved acc d ∧ d.net.txCount.toNat ≤ 15) (fun h => h.1.rings)
      (fun h hsize hstep => ⟨h.1.step hsize hstep, hstep.few h.2⟩) ops []
      ⟨Conserved.booted d, Nat.zero_le _⟩
      (eachOp_of_forall fun op hop _ data hdata => by
        cases op with
        | tx data' =>
          rw [List.mem_singleton.mp hdata]
          exact hsize data' hop
        | _ => cases hdata)

/-- Two writes are queued, the third is sent past them. -/
def pastTheQueue : List NetOp := [.tx [1], .tx [2], .setMode powerModePerformance, .tx [3], .tick]

theorem transmit_conservation_pastTheQueue :
    let d := netRun pastTheQueue (booted Devices.loaded)
    d.sent = [[3]] ∧ payloads d.net = [[1], [2]] ∧ Conserved [[1], [2], [3]] d := by
  intro d
  have hsize : FitsPackets pastTheQueue := by
    intro data hdata
    have hmem : data ∈ pastTheQueue.flatMap NetOp.writes :=
      List.mem_flatMap.mpr ⟨_, hdata, List.mem_singleton_self data⟩
    exact (by decide : ∀ data ∈ pastTheQueue.flatMap NetOp.writes,
      data.length ≤ netfsMaxPayload) data hmem
  obtain ⟨-, hconserved, -⟩ := transmit_conservation Devices.loaded pastTheQueue hsize
  exact ⟨by decide +kernel, by decide +kernel, hconserved⟩

/-! ## Order

A flush keeps the order and so does the queue. What does not is a payload that is sent while another
is queued; the run lemma has as its condition that this is never done.
-/

/-- What `transmit_now` is handed is the payload written, or as much of it as a packet holds. -/
def SentAs (sent data : List UInt8) : Prop :=
  sent = written data ∨ sent = (written data).take netfsMaxPayload

instance (sent data : List UInt8) : Decidable (SentAs sent data) :=
  inferInstanceAs (Decidable (_ ∨ _))

/-- The payloads sent are the first ones accepted, in order. -/
def InOrder (acc sent : List (List UInt8)) : Prop :=
  ∃ first rest, acc = first ++ rest ∧ List.Forall₂ SentAs sent first

/-- A write in performance mode while packets are queued. -/
def NetOp.overtakes (op : NetOp) (d : Devices) : Bool :=
  op.writes != [] && d.power.mode == powerModePerformance && d.net.txCount != 0

/-- The queue holds the payloads accepted behind those sent. -/
structure Ordered (acc : List (List UInt8)) (d : Devices) : Prop where
  rings : Rings d.net
  split : ∃ first rest, acc = first ++ rest ∧ List.Forall₂ SentAs d.sent first ∧
    payloads d.net = rest.map fun data => (written data).take netfsMaxPayload

theorem Ordered.queued {data : List UInt8} (h : Ordered acc d)
    (he : Enqueued ((written data).take netfsMaxPayload) d d') : Ordered (acc ++ [data]) d' := by
  obtain ⟨first, rest, rfl, hsent, hqueued⟩ := h.split
  refine ⟨he.rings, first, rest ++ [data], List.append_assoc .., ?_, ?_⟩
  · rw [show d'.sent = d.sent from congrArg Link.sent he.link]
    exact hsent
  · rw [he.payloads, hqueued, List.map_append]
    rfl

theorem Ordered.flushed (h : Ordered acc d) (hf : Flushed d d') : Ordered acc d' := by
  obtain ⟨first, rest, rfl, hsent, hqueued⟩ := h.split
  have hsent' : d'.sent = d.sent ++ payloads d.net :=
    (congrArg Link.sent hf.link).trans ((link d).sendAll_sent _).1
  refine ⟨hf.rings, first ++ rest, [], (List.append_nil _).symm, ?_, hf.payloads⟩
  rw [hsent', hqueued]
  refine List.rel_append hsent ?_
  rw [List.forall₂_map_left_iff, List.forall₂_same]
  exact fun data _ => Or.inr rfl

/-- What neither sends nor queues. -/
theorem Ordered.other (h : Ordered acc d) (hrings : Rings d'.net) (hsent : d'.sent = d.sent)
    (hpayloads : payloads d'.net = payloads d.net) : Ordered acc d' := by
  obtain ⟨first, rest, hacc, hforall, hqueued⟩ := h.split
  exact ⟨hrings, first, rest, hacc, by rw [hsent]; exact hforall, hpayloads.trans hqueued⟩

theorem Ordered.roomQueued {d₀ : Devices} {data : List UInt8} (h : Ordered acc d)
    (hroom : d₀ = d ∨ d.net.txCount.toNat = netfsQueueCap ∧ Flushed d d₀)
    (he : Enqueued ((written data).take netfsMaxPayload) d₀ d') : Ordered (acc ++ [data]) d' := by
  rcases hroom with rfl | ⟨-, hflushed⟩
  · exact h.queued he
  · exact (h.flushed hflushed).queued he

theorem Ordered.step {op : NetOp} {r : Int} (h : Ordered acc d) (hqueue : op.overtakes d = false)
    (hstep : NetStep d op r d') : Ordered (acc ++ op.writes) d' := by
  have hrings := hstep.rings h.rings
  cases hstep with
  | @sent data _ hmode hlink _ hkept =>
    -- nothing is queued that the payload could overtake
    have hnone : payloads d.net = [] := by
      refine List.eq_nil_of_length_eq_zero ?_
      rw [length_payloads]
      simpa [NetOp.overtakes, NetOp.writes, hmode, ← UInt32.toNat_inj] using hqueue
    obtain ⟨first, rest, rfl, hsent, hqueued⟩ := h.split
    have hrest : rest = [] := List.map_eq_nil_iff.mp (hqueued.symm.trans hnone)
    refine ⟨hrings, first ++ [data], [], by rw [hrest, List.append_nil, List.append_nil]; rfl, ?_, ?_⟩
    · rw [show d'.sent = d.sent ++ [written data] from
        (congrArg Link.sent hlink).trans ((link d).send_sent _).1]
      exact List.rel_append hsent (.cons (Or.inl rfl) .nil)
    · rw [hkept.payloads]
      exact hnone
  | queued _ hroom henqueued _ => exact h.roomQueued hroom henqueued
  | queuedAndFlushed _ hroom henqueued hflushed =>
    exact (h.roomQueued hroom henqueued).flushed hflushed
  | injected hlink _ hkept =>
    simp only [NetOp.writes, List.append_nil]
    exact h.other hrings ((congrArg Link.sent hlink).trans ((link d).receive_sent _).1) hkept.payloads
  | loopback hlink _ hkept =>
    simp only [NetOp.writes, List.append_nil]
    exact h.other hrings (congrArg Link.sent hlink) hkept.payloads
  | flushed hflushed =>
    simp only [NetOp.writes, List.append_nil]
    exact h.flushed hflushed
  | keys hmoved =>
    simp only [NetOp.writes, List.append_nil]
    exact h.other hrings hmoved.sent (by rw [hmoved.net])
  | @tickFlushed d₁ _ _ hmoved hflushed =>
    simp only [NetOp.writes, List.append_nil]
    have h₁ : Ordered acc d₁ := h.other (by rw [hmoved.net]; exact h.rings) hmoved.sent
      (by rw [hmoved.net])
    exact (h₁.flushed hflushed).other hflushed.rings rfl rfl
  | mode hnet hsent =>
    simp only [NetOp.writes, List.append_nil]
    exact h.other hrings hsent (by rw [hnet])

/-- **Order.** As long as every write in performance mode finds the queue empty, payloads are
    sent in the order they were accepted.

    `hqueue` is on the state before each write: in performance mode, where a payload is sent past
    the queue, there is none. -/
theorem transmit_order (d : Devices) (ops : List NetOp)
    (hqueue : EachOp (fun op d => op.overtakes d = false) ops (booted d)) :
    InOrder (accepted ops (booted d)) (netRun ops (booted d)).sent := by
  have h : Ordered (accepted ops (booted d)) (netRun ops (booted d)) :=
    netRun_keeps _ Ordered (fun h => h.rings) (fun h hqueue hstep => h.step hqueue hstep)
      ops [] ⟨booted_rings d, [], [], rfl, .nil, rfl⟩ hqueue
  obtain ⟨first, rest, hacc, hsent, -⟩ := h.split
  exact ⟨first, rest, hacc, hsent⟩

/-- **Overtaken**: the queue is flushed behind a payload that was accepted after it. -/
theorem transmit_overtaken :
    let ops := pastTheQueue ++ [.setMode powerModeBalanced, .flush]
    accepted ops (booted Devices.loaded) = [[1], [2], [3]] ∧
      (netRun ops (booted Devices.loaded)).sent = [[3], [1], [2]] ∧
      ¬ InOrder (accepted ops (booted Devices.loaded)) (netRun ops (booted Devices.loaded)).sent := by
  intro ops
  have hrun : accepted ops (booted Devices.loaded) = [[1], [2], [3]] ∧
      (netRun ops (booted Devices.loaded)).sent = [[3], [1], [2]] := by decide +kernel
  refine ⟨hrun.1, hrun.2, ?_⟩
  rw [hrun.1, hrun.2]
  rintro ⟨first, rest, hacc, hsent⟩
  cases hsent with
  | cons hhead _ =>
    obtain ⟨rfl, -⟩ := List.cons.inj hacc
    exact absurd hhead (by decide)

theorem transmit_order_flushed :
    let ops : List NetOp := [.tx [1], .tx [2], .flush, .setMode powerModePerformance, .tx [3]]
    (netRun ops (booted Devices.loaded)).sent = [[1], [2], [3]] ∧
      InOrder (accepted ops (booted Devices.loaded)) (netRun ops (booted Devices.loaded)).sent := by
  intro ops
  refine ⟨by decide +kernel, transmit_order Devices.loaded ops ?_⟩
  simp only [ops, EachOp, and_true]
  decide +kernel

/-! ## Batching

The immediate run is the same driver in another mode, not another program: the writes are the same
calls, and what makes them send at once is the switch to performance mode before them.
-/

/-- The line, once the queue has been sent. -/
def settled (d : Devices) : Link := (link d).sendAll (payloads d.net)

/-- A call of a run that batches: writes, flushes, ticks, and switches between the two modes that
    queue. -/
def NetOp.batches : NetOp → Bool
  | .tx data => data.length ≤ netfsMaxPayload
  | .flush => true
  | .tick => true
  | .setMode mode => mode == powerModeBalanced || mode == powerModeEnergySaver
  | _ => false

/-- The same writes, made in performance mode. -/
def immediate (ops : List NetOp) : List NetOp :=
  .setMode powerModePerformance :: (ops.flatMap NetOp.writes).map .tx

theorem settled_queued {d₀ : Devices}
    (hroom : d₀ = d ∨ d.net.txCount.toNat = netfsQueueCap ∧ Flushed d d₀)
    (he : Enqueued p d₀ d') : settled d' = (settled d).send p := by
  have hroom' : settled d₀ = settled d := by
    rcases hroom with rfl | ⟨-, hflushed⟩
    · rfl
    · rw [settled, hflushed.payloads, hflushed.link]
      rfl
  rw [← hroom', settled, he.link, he.payloads, Link.sendAll_append]
  rfl

theorem settled_flushed (hf : Flushed d d') : settled d' = settled d := by
  rw [settled, hf.payloads, hf.link]
  rfl

theorem mode_queued {d₀ : Devices}
    (hroom : d₀ = d ∨ d.net.txCount.toNat = netfsQueueCap ∧ Flushed d d₀)
    (he : Enqueued p d₀ d') : d'.power.mode = d.power.mode := by
  rw [he.power]
  rcases hroom with rfl | ⟨-, hflushed⟩
  · rfl
  · rw [hflushed.power]

/-- No write can overtake another: the mode queues, or nothing is queued. -/
def Patient (d : Devices) : Prop := d.power.mode ≠ powerModePerformance ∨ payloads d.net = []

/-- **Batching is a delay**: a write is sent on the settled line, nothing else touches it. -/
theorem NetStep.batched {op : NetOp} {r : Int} (hbatches : op.batches = true) (hpatient : Patient d)
    (hstep : NetStep d op r d') : settled d' = (settled d).sendAll op.writes ∧ Patient d' := by
  -- settled, a step has sent what it was handed, whether it sent, queued or flushed
  cases hstep with
  | @sent data _ hmode hlink hrings hkept =>
    have hdata : data.length ≤ netfsMaxPayload := of_decide_eq_true hbatches
    -- in performance mode nothing waits, so what is sent is the last
    have hnone : payloads d.net = [] := hpatient.resolve_left (absurd hmode)
    rw [written_of_le hdata] at hlink
    refine ⟨?_, Or.inr (hkept.payloads.trans hnone)⟩
    rw [settled, settled, hkept.payloads, hnone, hlink]
    rfl
  | @queued data d₀ _ hmode hroom henqueued _ =>
    have hdata : data.length ≤ netfsMaxPayload := of_decide_eq_true hbatches
    rw [written_of_le hdata, List.take_of_length_le hdata] at henqueued
    refine ⟨settled_queued hroom henqueued, Or.inl ?_⟩
    rw [mode_queued hroom henqueued]
    exact hmode
  | @queuedAndFlushed data _ _ _ _ hroom henqueued hflushed =>
    have hdata : data.length ≤ netfsMaxPayload := of_decide_eq_true hbatches
    rw [written_of_le hdata, List.take_of_length_le hdata] at henqueued
    exact ⟨(settled_flushed hflushed).trans (settled_queued hroom henqueued),
      Or.inr hflushed.payloads⟩
  | injected => cases hbatches
  | loopback => cases hbatches
  | flushed hflushed => exact ⟨settled_flushed hflushed, Or.inr hflushed.payloads⟩
  | keys hmoved =>
    refine ⟨?_, ?_⟩
    · rw [settled, hmoved.net, link, hmoved.net, hmoved.sent]
      rfl
    · rw [Patient, hmoved.mode, hmoved.net]
      exact hpatient
  | tickFlushed _ hmoved hflushed =>
    refine ⟨?_, Or.inr hflushed.payloads⟩
    rw [settled, link_tickFlushed hmoved hflushed]
    exact congrArg (Link.sendAll · _) hflushed.payloads
  | mode hnet hsent _ _ _ _ hnew =>
    refine ⟨?_, Or.inl ?_⟩
    · rw [settled, hnet, link, hnet, hsent]
      rfl
    · rw [hnew]
      rcases Bool.or_eq_true_iff.mp hbatches with hm | hm
      · rw [eq_of_beq hm, if_neg (by decide)]
        decide
      · rw [eq_of_beq hm, if_neg (by decide)]
        decide

/-- A run in performance mode sends each payload when it is written. -/
theorem link_immediate : ∀ (ps : List (List UInt8)) {d : Devices}, Rings d.net →
    d.power.mode = powerModePerformance → (∀ p ∈ ps, p.length ≤ netfsMaxPayload) →
    link (netRun (ps.map .tx) d) = (link d).sendAll ps := by
  intro ps
  induction ps with
  | nil => exact fun _ _ _ => rfl
  | cons p ps ih =>
    intro d h hmode hsize
    obtain ⟨hlink, hrings, hkept⟩ := transmitNow_spec p _ h (ofNat_length_le p)
    have hwritten := written_of_le (hsize p List.mem_cons_self)
    have hrun : ((NetOp.tx p).run d).2 = transmitNow p (UInt32.ofNat p.length) d := by
      rw [NetOp.run, netfsWritePath_tx, if_pos hmode]
    rw [List.map_cons, netRun, List.foldl_cons, hrun]
    refine (ih hrings (by rw [hkept.power]; exact hmode)
      fun q hq => hsize q (List.mem_cons_of_mem _ hq)).trans ?_
    rw [hlink, show p.take (UInt32.ofNat p.length).toNat = p from hwritten]
    rfl

theorem accepted_eq {d : Devices} (h : Rings d.net) (ops : List NetOp) :
    accepted ops d = ops.flatMap NetOp.writes := by
  induction ops generalizing d with
  | nil => rfl
  | cons op ops ih =>
    rw [accepted, NetOp.accepts_eq h op, ih ((NetOp.run_step h op).rings h), List.flatMap_cons]

theorem mem_writes_batches {op : NetOp} (hbatches : op.batches = true) {data : List UInt8}
    (hdata : data ∈ op.writes) : data.length ≤ netfsMaxPayload := by
  cases op with
  | tx data' =>
    rw [List.mem_singleton.mp hdata]
    exact of_decide_eq_true hbatches
  | _ => cases hdata

theorem link_batched {d : Devices} (h : Rings d.net) (hpatient : Patient d) {ops : List NetOp}
    (hbatches : ∀ op ∈ ops, op.batches = true) :
    link (netfsFlushTx (netRun ops d)) = (settled d).sendAll (ops.flatMap NetOp.writes) := by
  have hrun := netRun_keeps (fun op _ => op.batches = true)
    (fun acc d' => Rings d'.net ∧ settled d' = (settled d).sendAll acc ∧ Patient d')
    (fun h => h.1)
    (fun h hbatches hstep => by
      obtain ⟨hsettled, hpatient⟩ := hstep.batched hbatches h.2.2
      refine ⟨hstep.rings h.1, ?_, hpatient⟩
      rw [hsettled, h.2.1, Link.sendAll_append])
    ops [] ⟨h, rfl, hpatient⟩ (eachOp_of_forall fun op hop _ => hbatches op hop)
  rw [List.nil_append, accepted_eq h] at hrun
  rw [← hrun.2.1]
  exact (flushTxQueue_spec hrun.1).link

theorem link_immediate_run {d : Devices} (h : Rings d.net) {ops : List NetOp}
    (hbatches : ∀ op ∈ ops, op.batches = true) :
    link (netRun (immediate ops) d) = (link d).sendAll (ops.flatMap NetOp.writes) :=
  link_immediate _ (d := powerSetMode powerModePerformance d) h rfl fun data hdata => by
    obtain ⟨op, hop, hmem⟩ := List.mem_flatMap.mp hdata
    exact mem_writes_batches (hbatches op hop) hmem

/-- **Batching refines immediate sending.** From any state of the drivers in which nothing is
    queued, a run that batches, flushed at its end, leaves the line as the same writes made in
    performance mode do: the payloads sent and received, and every counter. Where packets are
    queued at the start, so do the writes made once these have been sent.

    `history` is any run before, so the comparison starts in any state of the drivers. `hbatches`
    admits writes, flushes, ticks and switches between the two modes that queue. A switch to
    performance mode would make the run the one it is compared with. -/
theorem batching_refines_immediate (d : Devices) (history ops : List NetOp)
    (hbatches : ∀ op ∈ ops, op.batches = true) :
    let start := netRun history (booted d)
    (start.net.txCount = 0 →
      link (netfsFlushTx (netRun ops start)) = link (netRun (immediate ops) start)) ∧
    (start.power.mode ≠ powerModePerformance →
      link (netfsFlushTx (netRun ops start)) =
        link (netRun (immediate ops) (netfsFlushTx start))) := by
  intro start
  have h : Rings start.net := netRun_rings (booted_rings d) history
  refine ⟨fun hempty => ?_, fun hmode => ?_⟩
  · have hnone : payloads start.net = [] :=
      List.eq_nil_of_length_eq_zero (by rw [length_payloads, hempty]; rfl)
    rw [link_batched h (Or.inr hnone) hbatches, link_immediate_run h hbatches, settled, hnone]
    rfl
  · have hflushed := flushTxQueue_spec h
    rw [link_batched h (Or.inl hmode) hbatches, netfsFlushTx,
      link_immediate_run hflushed.rings hbatches, hflushed.link, settled]

/-- Six writes with a tick among them: one batch of four, and one that the last flush sends. -/
theorem batching_refines_immediate_six :
    let ops : List NetOp := [.tx [1], .tx [2], .setMode powerModeEnergySaver, .tx [3], .tick,
      .setMode powerModeBalanced, .tx [4], .tx [5], .tx [6]]
    (netRun ops (booted Devices.loaded)).net.txCount = 2 ∧
      link (netfsFlushTx (netRun ops (booted Devices.loaded))) =
        link (netRun (immediate ops) (booted Devices.loaded)) := by
  intro ops
  exact ⟨by decide +kernel,
    (batching_refines_immediate Devices.loaded [] ops (by decide)).1 rfl⟩

end Proof
end BumbelBee
