import BumbelBee.Lib.Batch
import BumbelBee.Proof.Keys

/-!
# What the wakeup counters count

The power manager wakes the CPU for a key delivered at once, for a flush of the keys it
coalesced and for a flush of the packets it gathered. `Tallied` says so of its counters: the
keys and the packets are a `Batch` each, and every counter is a number of theirs, modulo
2^64. What the shell shows as saved follows from each batch being paid for.

The counters are kept in three places of the code, and one of them counts events that another has
announced. That no wakeup is counted twice and none is missed is an equation between numbers that
all go round; the inequality, that there are no more wakeups than events, is about the numbers
before they do.
-/

namespace BumbelBee
namespace Proof

open Lib Kernel

/-- The characters a run delivers to the buffer at once. -/
def deliveredDirectly : List KeyOp → Devices → List UInt8 :=
  outputs KeyOp.run fun op d => if op.direct d then op.types else []

/-- **The counters**, by what they count. -/
structure Tallied (direct : Nat) (keys packets : Batch) (d : Devices) : Prop where
  pendingKeys : d.power.keyboardCount.toNat = keys.pending
  pendingPackets : d.net.txCount.toNat = packets.pending
  pendingTxPackets : d.power.stats.pendingTxPackets = d.net.txCount
  keyboardEvents : d.power.stats.keyboardEvents = UInt64.ofNat (direct + keys.added)
  keyboardCoalesced : d.power.stats.keyboardCoalesced = UInt64.ofNat keys.added
  keyboardFlushes : d.power.stats.keyboardFlushes = UInt64.ofNat keys.flushes
  netTxEnqueued : d.power.stats.netTxEnqueued = UInt64.ofNat packets.added
  netFlushes : d.power.stats.netFlushes = UInt64.ofNat packets.flushes
  wakeups : d.power.stats.wakeups = UInt64.ofNat (direct + keys.flushes + packets.flushes)

variable {direct : Nat} {keys packets : Batch} {d d' : Devices}

theorem ofNat_succ (n : Nat) : UInt64.ofNat (n + 1) = UInt64.ofNat n + 1 := UInt64.ofNat_add n 1

theorem Tallied.quiet (h : Tallied direct keys packets d) (hquiet : Quiet d d') :
    Tallied direct keys packets d' := by
  refine ⟨?_, ?_, ?_, ?_, ?_, ?_, ?_, ?_, ?_⟩
  · rw [hquiet.keyboardCount]
    exact h.pendingKeys
  · rw [hquiet.txCount]
    exact h.pendingPackets
  · rw [hquiet.txCount, hquiet.stats]
    exact h.pendingTxPackets
  · rw [hquiet.stats]
    exact h.keyboardEvents
  · rw [hquiet.stats]
    exact h.keyboardCoalesced
  · rw [hquiet.stats]
    exact h.keyboardFlushes
  · rw [hquiet.stats]
    exact h.netTxEnqueued
  · rw [hquiet.stats]
    exact h.netFlushes
  · rw [hquiet.stats]
    exact h.wakeups

/-- A packet joins the queue. -/
theorem Tallied.enqueued {p : List UInt8} (h : Tallied direct keys packets d)
    (he : Enqueued p d d') : Tallied direct keys packets.add d' := by
  refine ⟨?_, ?_, ?_, ?_, ?_, ?_, ?_, ?_, ?_⟩
  · rw [he.power]
    exact h.pendingKeys
  · rw [he.count, h.pendingPackets]
    rfl
  · rw [he.power]
  · rw [he.power]
    exact h.keyboardEvents
  · rw [he.power]
    exact h.keyboardCoalesced
  · rw [he.power]
    exact h.keyboardFlushes
  · rw [he.power, Batch.add, ofNat_succ, ← h.netTxEnqueued]
  · rw [he.power]
    exact h.netFlushes
  · rw [he.power]
    exact h.wakeups

/-- The packets are flushed: a wakeup if there are any. -/
theorem Tallied.flushed (h : Tallied direct keys packets d) (hf : Flushed d d') :
    Tallied direct keys packets.flush d' := by
  have hempty : d.net.txCount = 0 ↔ packets.pending = 0 := by
    rw [← h.pendingPackets, ← UInt32.toNat_inj]
    rfl
  refine ⟨?_, ?_, ?_, ?_, ?_, ?_, ?_, ?_, ?_⟩
  · rw [hf.power]
    exact h.pendingKeys
  · rw [hf.count, Batch.flush_pending]
    rfl
  · rw [hf.power, hf.count, flushedStats]
    split <;> rfl
  · rw [hf.power, flushedStats]
    split <;> exact h.keyboardEvents
  · rw [hf.power, flushedStats]
    split <;> exact h.keyboardCoalesced
  · rw [hf.power, flushedStats]
    split <;> exact h.keyboardFlushes
  · rw [hf.power, flushedStats, Batch.flush_added]
    split <;> exact h.netTxEnqueued
  · rw [hf.power, flushedStats, Batch.flush_flushes]
    simp only [hempty]
    split
    · exact h.netFlushes
    · rw [ofNat_succ, ← h.netFlushes]
  · rw [hf.power, flushedStats, Batch.flush_flushes]
    simp only [hempty]
    split
    · exact h.wakeups
    · rw [← Nat.add_assoc, ofNat_succ, ← h.wakeups]

/-- The keys are flushed: a wakeup if there are any. -/
theorem Tallied.keysFlushed (h : Tallied direct keys packets d) :
    Tallied direct keys.flush packets (keyboardFlushNow d) := by
  have hnet := (keyboardFlushNow_kept d).net
  have hempty : d.power.keyboardCount = 0 ↔ keys.pending = 0 := by
    rw [← h.pendingKeys, ← UInt32.toNat_inj]
    rfl
  rcases keyboardFlushNow_power d with ⟨hzero, hrun⟩ | ⟨hsome, head, hpower, -⟩
  · rw [hrun, Batch.flush, if_pos (hempty.mp hzero)]
    exact h
  · have hflushes : keys.flush.flushes = keys.flushes + 1 := by
      rw [Batch.flush_flushes, if_neg fun h0 => hsome (hempty.mpr h0)]
    refine ⟨?_, ?_, ?_, ?_, ?_, ?_, ?_, ?_, ?_⟩
    · rw [hpower, Batch.flush_pending]
      rfl
    · rw [hnet]
      exact h.pendingPackets
    · rw [hpower, hnet]
      exact h.pendingTxPackets
    · rw [hpower, Batch.flush_added]
      exact h.keyboardEvents
    · rw [hpower, Batch.flush_added]
      exact h.keyboardCoalesced
    · rw [hpower, hflushes, ofNat_succ, ← h.keyboardFlushes]
    · rw [hpower]
      exact h.netTxEnqueued
    · rw [hpower]
      exact h.netFlushes
    · rw [hpower, hflushes, ← Nat.add_assoc, Nat.add_right_comm, ofNat_succ, ← h.wakeups]

/-- A key delivered at once is a wakeup, one that joins the queue is not. -/
theorem Tallied.key (h : Tallied direct keys packets d) (ch : UInt8) :
    if (KeyOp.key ch).direct d then Tallied (direct + 1) keys packets (powerKeyboardChar ch d)
    else Tallied direct keys.add packets (powerKeyboardChar ch d) := by
  split
  · rename_i hdirect
    rw [powerKeyboardChar_direct hdirect]
    refine ⟨h.pendingKeys, h.pendingPackets, h.pendingTxPackets, ?_, h.keyboardCoalesced,
      h.keyboardFlushes, h.netTxEnqueued, h.netFlushes, ?_⟩
    · rw [Nat.add_right_comm, ofNat_succ, ← h.keyboardEvents]
    · rw [Nat.add_right_comm direct, Nat.add_right_comm, ofNat_succ, ← h.wakeups]
  · rename_i hdirect
    rw [Bool.not_eq_true] at hdirect
    have hroom := (KeyOp.not_direct hdirect).2
    have hcap : powerKeyboardQcap = 256 := rfl
    rw [powerKeyboardChar_queued hdirect]
    refine ⟨?_, h.pendingPackets, h.pendingTxPackets, ?_, ?_, h.keyboardFlushes, h.netTxEnqueued,
      h.netFlushes, h.wakeups⟩
    · show (d.power.keyboardCount + 1).toNat = keys.pending + 1
      rw [← h.pendingKeys, UInt32.toNat_add]
      simp only [UInt32.reduceToNat]
      omega
    · rw [Batch.add, ← Nat.add_assoc, ofNat_succ, ← h.keyboardEvents]
    · rw [Batch.add, ofNat_succ, ← h.keyboardCoalesced]

/-! ## Runs -/

/-- The counters behind a run of `n` operations. -/
structure Metered (n direct : Nat) (d : Devices) (keys packets : Batch) : Prop where
  tallied : Tallied direct keys packets d
  keysPaid : keys.Paid
  packetsPaid : packets.Paid
  few : direct + keys.added + packets.added ≤ n

variable {n : Nat}

/-- **A call of the drivers** delivers no key at once. -/
theorem Metered.net {op : NetOp} (h : Metered n direct d keys packets)
    (hstep : PowerStep d op d') : ∃ keys packets, Metered (n + 1) direct d' keys packets := by
  have hfew := h.few
  cases hstep with
  | quiet hquiet => exact ⟨keys, packets, h.tallied.quiet hquiet, h.keysPaid, h.packetsPaid, by omega⟩
  | @queued _ _ d₀ d₁ _ hroom henqueued hbatch =>
    have h₀ : ∃ packets₀, Tallied direct keys packets₀ d₀ ∧ packets₀.Paid ∧
        packets₀.added = packets.added := by
      rcases hroom with rfl | hflushed
      · exact ⟨packets, h.tallied, h.packetsPaid, rfl⟩
      · exact ⟨packets.flush, h.tallied.flushed hflushed, h.packetsPaid.flush,
          packets.flush_added⟩
    obtain ⟨packets₀, htallied, hpaid, hadded⟩ := h₀
    have hfew₁ : direct + keys.added + packets₀.add.added ≤ n + 1 := by
      rw [show packets₀.add.added = packets₀.added + 1 from rfl]
      omega
    rcases hbatch with rfl | hflushed
    · exact ⟨keys, packets₀.add, htallied.enqueued henqueued, h.keysPaid, hpaid.add, hfew₁⟩
    · refine ⟨keys, packets₀.add.flush, (htallied.enqueued henqueued).flushed hflushed, h.keysPaid,
        hpaid.add.flush, ?_⟩
      rw [Batch.flush_added]
      exact hfew₁
  | flushed hflushed =>
    refine ⟨keys, packets.flush, h.tallied.flushed hflushed, h.keysPaid, h.packetsPaid.flush, ?_⟩
    rw [Batch.flush_added]
    omega
  | ticked hquiet hflush hlast =>
    have hkeys := (h.tallied.quiet hquiet).keysFlushed
    rcases hflush with rfl | hflushed
    · refine ⟨keys.flush, packets, hkeys.quiet hlast, h.keysPaid.flush, h.packetsPaid, ?_⟩
      rw [Batch.flush_added]
      omega
    · refine ⟨keys.flush, packets.flush, (hkeys.flushed hflushed).quiet hlast, h.keysPaid.flush,
        h.packetsPaid.flush, ?_⟩
      rw [Batch.flush_added, Batch.flush_added]
      omega

/-- **One operation.** -/
theorem Metered.step (op : KeyOp) (h : Metered n direct d keys packets) (hrings : Rings d.net) :
    ∃ keys packets, Metered (n + 1)
      (direct + (if op.direct d then op.types else []).length) (op.run d) keys packets := by
  have hfew := h.few
  cases op with
  | key ch =>
    have hkey := h.tallied.key ch
    split at hkey <;> rename_i hdirect
    · rw [if_pos hdirect]
      refine ⟨keys, packets, hkey, h.keysPaid, h.packetsPaid, ?_⟩
      show direct + 1 + keys.added + packets.added ≤ n + 1
      omega
    · rw [if_neg hdirect]
      refine ⟨keys.add, packets, hkey, h.keysPaid.add, h.packetsPaid, ?_⟩
      show direct + 0 + (keys.added + 1) + packets.added ≤ n + 1
      omega
  | getchar =>
    refine ⟨keys, packets, ?_, h.keysPaid, h.packetsPaid, Nat.le_succ_of_le hfew⟩
    exact ⟨h.tallied.pendingKeys, h.tallied.pendingPackets, h.tallied.pendingTxPackets,
      h.tallied.keyboardEvents, h.tallied.keyboardCoalesced, h.tallied.keyboardFlushes,
      h.tallied.netTxEnqueued, h.tallied.netFlushes, h.tallied.wakeups⟩
  | net op => exact h.net (op.run_power hrings)

/-- The counters of every run from `power_init` and `netfs_init`. -/
theorem metered_run (d : Devices) (ops : List KeyOp) :
    ∃ keys packets, Metered ops.length (deliveredDirectly ops (booted d)).length
      (runAll KeyOp.run ops (booted d)) keys packets := by
  refine (runAll_invariant (fun done d' => Rings d'.net ∧ ∃ keys packets,
    Metered done.length (deliveredDirectly done (booted d)).length d' keys packets)
    ⟨booted_rings d, Batch.empty, Batch.empty, ?_⟩ ops ?_).2
  · exact ⟨⟨rfl, rfl, rfl, rfl, rfl, rfl, rfl, rfl, rfl⟩, Batch.Paid.empty, Batch.Paid.empty,
      Nat.le_refl 0⟩
  · intro done op hbefore
    obtain ⟨hrings, keys, packets, h⟩ := hbefore
    refine ⟨op.run_rings hrings, ?_⟩
    rw [deliveredDirectly, outputs_snoc, List.length_append, List.length_append]
    exact h.step op hrings

/-- The per cent is what the counters give, and no more than a hundred. -/
theorem shellPowerSaved_exact {stats : PowerStats}
    (hle : stats.wakeups.toNat ≤ (stats.keyboardEvents + stats.netTxEnqueued).toNat)
    (hsmall : (stats.keyboardEvents + stats.netTxEnqueued).toNat < 2 ^ 56) :
    (shellPowerSaved stats).toNat =
        ((stats.keyboardEvents + stats.netTxEnqueued).toNat - stats.wakeups.toNat) * 100 /
          (stats.keyboardEvents + stats.netTxEnqueued).toNat ∧
      shellPowerSaved stats ≤ 100 := by
  rw [UInt64.le_iff_toNat_le]
  simp only [shellPowerSaved]
  generalize stats.keyboardEvents + stats.netTxEnqueued = total at hle hsmall
  by_cases hnone : total = 0
  · rw [if_neg fun h => h.1 hnone, hnone]
    exact ⟨(Nat.div_zero _).symm, Nat.zero_le _⟩
  · have hpos : 0 < total.toNat :=
      Nat.pos_of_ne_zero fun h0 => hnone (UInt64.toNat_inj.mp h0)
    have hle' : stats.wakeups ≤ total := UInt64.le_iff_toNat_le.mpr hle
    have hvalue : ((total - stats.wakeups) * 100 / total).toNat =
        (total.toNat - stats.wakeups.toNat) * 100 / total.toNat := by
      rw [UInt64.toNat_div, UInt64.toNat_mul, UInt64.toNat_sub_of_le _ _ hle', Nat.mod_eq_of_lt]
      · rfl
      · simp only [UInt64.reduceToNat]
        omega
    rw [if_pos ⟨hnone, hle'⟩, hvalue]
    refine ⟨rfl, ?_⟩
    calc (total.toNat - stats.wakeups.toNat) * 100 / total.toNat
        ≤ total.toNat * 100 / total.toNat :=
          Nat.div_le_div_right (Nat.mul_le_mul_right 100 (Nat.sub_le _ _))
      _ = 100 := Nat.mul_div_cancel_left 100 hpos

/-- **Wakeups are accounted for**, and no more are counted than events: what the shell shows as
    saved is a share of these.

    `hlen` keeps the percentage's product from going round a `u64`; the counters themselves may go
    round as often as they like. -/
theorem wakeups_accounted (d : Devices) (ops : List KeyOp) (hlen : ops.length < 2 ^ 56) :
    let stats := powerGetStats (runAll KeyOp.run ops (booted d))
    let total := stats.keyboardEvents + stats.netTxEnqueued
    stats.wakeups.toNat = (deliveredDirectly ops (booted d)).length +
        stats.keyboardFlushes.toNat + stats.netFlushes.toNat ∧
      stats.keyboardEvents.toNat = (deliveredDirectly ops (booted d)).length +
        stats.keyboardCoalesced.toNat ∧
      stats.wakeups.toNat + stats.pendingKeys.toNat + stats.pendingTxPackets.toNat ≤
        stats.keyboardEvents.toNat + stats.netTxEnqueued.toNat ∧
      total.toNat = stats.keyboardEvents.toNat + stats.netTxEnqueued.toNat ∧
      (total ≠ 0 → total ≥ stats.wakeups) ∧
      (shellPowerSaved stats).toNat =
        (total.toNat - stats.wakeups.toNat) * 100 / total.toNat ∧
      shellPowerSaved stats ≤ 100 := by
  intro stats total
  obtain ⟨keys, packets, h, hkeys, hpackets, hfew⟩ := metered_run d ops
  -- fewer than 2 ^ 56 calls wrap none of the counters
  have hexact : ∀ m, m ≤ ops.length → (UInt64.ofNat m).toNat = m := fun m hm =>
    UInt64.toNat_ofNat_of_lt' (lt_of_le_of_lt hm (hlen.trans (by decide)))
  rw [Batch.Paid] at hkeys hpackets
  have hwakeups : stats.wakeups.toNat = (deliveredDirectly ops (booted d)).length + keys.flushes +
      packets.flushes := (congrArg _ h.wakeups).trans (hexact _ (by omega))
  have hevents : stats.keyboardEvents.toNat = (deliveredDirectly ops (booted d)).length +
      keys.added := (congrArg _ h.keyboardEvents).trans (hexact _ (by omega))
  have hcoalesced : stats.keyboardCoalesced.toNat = keys.added :=
    (congrArg _ h.keyboardCoalesced).trans (hexact _ (by omega))
  have hkeyFlushes : stats.keyboardFlushes.toNat = keys.flushes :=
    (congrArg _ h.keyboardFlushes).trans (hexact _ (by omega))
  have hnetFlushes : stats.netFlushes.toNat = packets.flushes :=
    (congrArg _ h.netFlushes).trans (hexact _ (by omega))
  have henqueued : stats.netTxEnqueued.toNat = packets.added :=
    (congrArg _ h.netTxEnqueued).trans (hexact _ (by omega))
  have hpendingKeys : stats.pendingKeys.toNat = keys.pending := h.pendingKeys
  have hpendingPackets : stats.pendingTxPackets.toNat = packets.pending :=
    (congrArg _ h.pendingTxPackets).trans h.pendingPackets
  have htotal : total.toNat = stats.keyboardEvents.toNat + stats.netTxEnqueued.toNat := by
    rw [UInt64.toNat_add, Nat.mod_eq_of_lt (by omega)]
  have hle : stats.wakeups.toNat ≤ total.toNat := by omega
  have hsmall : total.toNat < 2 ^ 56 := by omega
  exact ⟨by omega, by omega, by omega, htotal, fun _ => UInt64.le_iff_toNat_le.mpr hle,
    shellPowerSaved_exact hle hsmall⟩

/-- Two keys coalesced, one delivered at once, two packets in one flush: three wakeups. -/
theorem wakeups_accounted_few :
    let stats := powerGetStats (runAll KeyOp.run [.key 0x61, .key 0x62, .net (.tx [1]),
      .net (.tx [2]), .net .tick, .net .tick, .net .tick, .net (.setMode powerModePerformance),
      .key 0x63] (booted Devices.loaded))
    stats.wakeups = 3 ∧ stats.keyboardEvents + stats.netTxEnqueued = 5 ∧
      shellPowerSaved stats = 40 ∧ shellPowerSaved stats ≤ 100 := by
  intro stats
  exact ⟨by decide +kernel, by decide +kernel, by decide +kernel,
    (wakeups_accounted Devices.loaded _ (by decide)).2.2.2.2.2.2⟩

end Proof
end BumbelBee
