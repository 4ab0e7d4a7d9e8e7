import BumbelBee.Proof.Exposure
import Mathlib.Data.List.TakeWhile

/-!
# Does a write hand over what it says?

`vfs_write` copies a counted buffer into a C string and answers with the count; the driver
takes the string's length, which ends at the first NUL. So the count is honest exactly when no
byte of the first 256 is zero (`write_count_honest_iff`).

What was handed over is not to be seen from the count, and hardly from the driver's state either: a
payload may be sent at once, or queued, or queued and flushed with others. `Handed` says it in each
of the cases, and that it determines the payload (`Handed.unique`) is what makes the converse
provable.
-/

namespace BumbelBee
namespace Proof

open Lib Kernel

/-! ## One packet more -/

/-- The payload is sent at once, or joins the queue, of which a front is sent. -/
def TxHanded (p : List UInt8) (d d' : Devices) : Prop :=
  (link d' = (link d).send p ∧ payloads d'.net = payloads d.net) ∨
    ∃ ps, link d' = (link d).sendAll ps ∧ ps ++ payloads d'.net = payloads d.net ++ [p]

def Injected (p : List UInt8) (d d' : Devices) : Prop :=
  link d' = (link d).receive p ∧ payloads d'.net = payloads d.net

/-- Exactly one packet was sent, queued or injected, with this payload. -/
def Handed (path p : List UInt8) (d d' : Devices) : Prop :=
  (path = cstr "/net/tx" ∧ TxHanded p d d') ∨ (path = cstr "/net/rx/inject" ∧ Injected p d d')

/-- What the count of a write says: one packet, with as many of the buffer's bytes. -/
def HonestWrite (fd : Int) (path data : List UInt8) (v : Vfs) : Prop :=
  ∀ n, (vfsWrite fd data v).1 = some n →
    Handed path (data.take n) v.nodes.devices (vfsWrite fd data v).2.nodes.devices

variable {d d' : Devices} {p q : List UInt8}

theorem TxHanded.perm (h : TxHanded p d d') :
    (d'.sent ++ payloads d'.net).Perm (d.sent ++ payloads d.net ++ [p]) := by
  rcases h with ⟨hlink, hqueue⟩ | ⟨ps, hlink, hqueue⟩
  · have hsent : d'.sent = d.sent ++ [p] :=
      (congrArg Link.sent hlink).trans ((link d).send_sent p).1
    rw [hsent, hqueue, List.append_assoc, List.append_assoc]
    exact List.perm_append_comm.append_left d.sent
  · have hsent : d'.sent = d.sent ++ ps :=
      (congrArg Link.sent hlink).trans ((link d).sendAll_sent ps).1
    rw [hsent, List.append_assoc, hqueue, List.append_assoc]

theorem Link.receive_injective {l : Link} (hp : p.length ≤ netfsMaxPayload)
    (hq : q.length ≤ netfsMaxPayload) (h : l.receive p = l.receive q) : p = q := by
  have hreceived := congrArg Link.received h
  simp only [Link.receive] at hreceived
  have hlast := List.append_cancel_left hreceived
  rwa [List.take_of_length_le hp, List.take_of_length_le hq, List.singleton_inj] at hlast

/-- The payload is known by what was done. -/
theorem Handed.unique {path : List UInt8} (hp : p.length ≤ netfsMaxPayload)
    (hq : q.length ≤ netfsMaxPayload) (h : Handed path p d d') (h' : Handed path q d d') :
    p = q := by
  have hne : cstr "/net/tx" ≠ cstr "/net/rx/inject" := by decide
  rcases h with ⟨rfl, htx⟩ | ⟨rfl, hrx⟩
  · rcases h' with ⟨-, htx'⟩ | ⟨heq, -⟩
    · have hperm := htx.perm.symm.trans htx'.perm
      exact List.singleton_perm_singleton.mp ((List.perm_append_left_iff _).mp hperm)
    · exact absurd heq hne
  · rcases h' with ⟨heq, -⟩ | ⟨-, hrx'⟩
    · exact absurd heq.symm hne
    · exact Link.receive_injective hp hq (hrx.1.symm.trans hrx'.1)

/-! ## What the driver is handed -/

/-- A queue that was flushed before, behind, or not at all. -/
theorem txHanded_queued {d₀ d₁ : Devices}
    (hroom : d₀ = d ∨ d.net.txCount.toNat = netfsQueueCap ∧ Flushed d d₀)
    (henqueued : Enqueued p d₀ d₁) :
    ∃ ps, link d₁ = (link d).sendAll ps ∧ ps ++ payloads d₁.net = payloads d.net ++ [p] := by
  rcases hroom with rfl | ⟨-, hflushed⟩
  · exact ⟨[], henqueued.link, henqueued.payloads⟩
  · refine ⟨payloads d.net, henqueued.link.trans hflushed.link, ?_⟩
    rw [henqueued.payloads, hflushed.payloads, List.nil_append]

theorem tx_handed (hrings : Rings d.net) (hp : p.length ≤ netfsMaxPayload) :
    (netfsWritePath (cstr "/net/tx") p d).1 = 0 ∧
      TxHanded p d (netfsWritePath (cstr "/net/tx") p d).2 := by
  have hstep := NetOp.run_step hrings (.tx p)
  have hwritten := written_of_le hp
  have hclamped : (written p).take netfsMaxPayload = p := by
    rw [hwritten, List.take_of_length_le hp]
  simp only [NetOp.run] at hstep
  generalize netfsWritePath (cstr "/net/tx") p d = result at hstep ⊢
  obtain ⟨rc, d'⟩ := result
  cases hstep with
  | sent _ hlink _ hkept => exact ⟨rfl, Or.inl ⟨by rw [hlink, hwritten], hkept.payloads⟩⟩
  | queued _ hroom henqueued _ =>
    rw [hclamped] at henqueued
    exact ⟨rfl, Or.inr (txHanded_queued hroom henqueued)⟩
  | queuedAndFlushed _ hroom henqueued hflushed =>
    rw [hclamped] at henqueued
    obtain ⟨ps, hlink, hqueue⟩ := txHanded_queued hroom henqueued
    refine ⟨rfl, Or.inr ⟨payloads d.net ++ [p], ?_, ?_⟩⟩
    · rw [hflushed.link, hlink, ← Link.sendAll_append, hqueue]
    · rw [hflushed.payloads, List.append_nil]

theorem inject_handed (hrings : Rings d.net) (hp : p.length ≤ netfsMaxPayload) :
    (netfsWritePath (cstr "/net/rx/inject") p d).1 = 0 ∧
      Injected p d (netfsWritePath (cstr "/net/rx/inject") p d).2 := by
  have hstep := NetOp.run_step hrings (.inject p)
  have hwritten := written_of_le hp
  simp only [NetOp.run] at hstep
  generalize netfsWritePath (cstr "/net/rx/inject") p d = result at hstep ⊢
  obtain ⟨rc, d'⟩ := result
  cases hstep with
  | injected hlink _ hkept => exact ⟨rfl, by rw [hlink, hwritten], hkept.payloads⟩

/-- **A write** answers with the count of the buffer, and hands the driver the string in it. -/
theorem vfsWrite_handed {v : Vfs} (h : Wired v) {i : Fin vfsMaxFds} {fd : VfsFd}
    (hfd : v.fdTable i = some fd) (hflags : fd.flags ≠ vfsORdonly)
    (hpath : fd.path = cstr "/net/tx" ∨ fd.path = cstr "/net/rx/inject") (data : List UInt8) :
    (vfsWrite (i.val : Int) data v).1 = some (data.take 256).length ∧
      Handed fd.path ((data.take 256).takeWhile (· ≠ 0)) v.nodes.devices
        (vfsWrite (i.val : Int) data v).2.nodes.devices := by
  have hlength : ((data.take 256).takeWhile (· ≠ 0)).length ≤ netfsMaxPayload :=
    ((List.takeWhile_prefix _).length_le).trans (List.length_take_le 256 data)
  have htype : fd.type = .net := by
    have hkind := h.typed i fd hfd
    rcases hpath with hpath | hpath <;> rw [hpath] at hkind <;>
      exact (Option.some.inj hkind).symm
  have hrun : vfsWrite (i.val : Int) data v =
      (if (netfsWritePath fd.path ((data.take 256).takeWhile (· ≠ 0)) v.nodes.devices).1 = 0 then
        some (data.take 256).length else none,
      { v with nodes := { v.nodes with devices :=
        (netfsWritePath fd.path ((data.take 256).takeWhile (· ≠ 0)) v.nodes.devices).2 } }) := by
    rw [vfsWrite, findFd_fin i v, hfd]
    exact if_neg fun hor => hor.elim hflags fun hne => hne htype
  rw [hrun]
  rcases hpath with hpath | hpath
  · obtain ⟨hzero, hhanded⟩ := tx_handed h.rings hlength
    rw [hpath]
    exact ⟨by rw [if_pos hzero], Or.inl ⟨rfl, hhanded⟩⟩
  · obtain ⟨hzero, hhanded⟩ := inject_handed h.rings hlength
    rw [hpath]
    exact ⟨by rw [if_pos hzero], Or.inr ⟨rfl, hhanded⟩⟩

/-- **Write counts are honest exactly when the string does not end early**: in every state a
    boot and any steps reach, for every descriptor that may write to one of the two paths.

    `h` is any run from boot over any drive. `hfd` and `hflags` are a descriptor that is open for
    writing, `hpath` says for which of the two paths, and `data` is any buffer: of a longer one than
    a packet the count says so. -/
theorem write_count_honest_iff (a : Ata) (m : Memory) (totalBytes : UInt64) {v : Vfs}
    (h : VfsReaches a m totalBytes v) {i : Fin vfsMaxFds} {fd : VfsFd}
    (hfd : v.fdTable i = some fd) (hflags : fd.flags ≠ vfsORdonly)
    (hpath : fd.path = cstr "/net/tx" ∨ fd.path = cstr "/net/rx/inject") (data : List UInt8) :
    HonestWrite (i.val : Int) fd.path data v ↔ ∀ c ∈ data.take 256, c ≠ 0 := by
  obtain ⟨hcount, hhanded⟩ := vfsWrite_handed h.wired hfd hflags hpath data
  have hlength : (data.take 256).length ≤ netfsMaxPayload := List.length_take_le 256 data
  have hfront : data.take (data.take 256).length = data.take 256 := by
    rw [List.length_take, List.take_eq_take_min, Nat.min_assoc, Nat.min_self]
    exact List.take_eq_take_iff.mpr (by omega)
  constructor
  · intro hhonest
    have hsaid := hhonest _ hcount
    rw [hfront] at hsaid
    have hsame := hhanded.unique (((List.takeWhile_prefix _).length_le).trans hlength) hlength hsaid
    intro c hc
    have hall := List.takeWhile_eq_self_iff.mp hsame c hc
    simpa using hall
  · intro hplain n hn
    obtain rfl : n = (data.take 256).length := Option.some.inj (hn.symm.trans hcount)
    have hwhole : (data.take 256).takeWhile (· ≠ 0) = data.take 256 :=
      List.takeWhile_eq_self_iff.mpr fun c hc => by simpa using hplain c hc
    rw [hwhole] at hhanded
    rw [hfront]
    exact hhanded

/-- The first file opened after boot, for sending. -/
def sender : Vfs := (vfsOpen (cstr "/net/tx") vfsOWronly (kernelBoot blankDrive sampleMemory 0)).2

theorem sender_reached : VfsReaches blankDrive sampleMemory 0 sender :=
  .step (.open (cstr "/net/tx") vfsOWronly) .boot trivial rfl

def senderFd : VfsFd := ⟨vfsOWronly, 0, .net, cstr "/net/tx"⟩

theorem sender_file : sender.fdTable 0 = some senderFd := rfl

/-- A buffer longer than a packet, with a NUL where it is not looked at. -/
theorem write_count_honest_long :
    HonestWrite 0 (cstr "/net/tx") (List.replicate 300 0x61 ++ [0]) sender := by
  refine (write_count_honest_iff blankDrive sampleMemory 0 sender_reached sender_file (by decide)
    (Or.inl rfl) (List.replicate 300 0x61 ++ [0])).mpr fun c hc => ?_
  rw [List.take_append_of_le_length (by rw [List.length_replicate]; omega)] at hc
  rw [List.eq_of_mem_replicate (List.mem_of_mem_take hc)]
  decide

/-- Three bytes with a NUL between them: the count is 3, and the packet is the first byte. -/
theorem write_count_dishonest : ¬ ∀ {v : Vfs}, VfsReaches blankDrive sampleMemory 0 v →
    ∀ {i : Fin vfsMaxFds} {fd : VfsFd}, v.fdTable i = some fd → fd.flags ≠ vfsORdonly →
      fd.path = cstr "/net/tx" ∨ fd.path = cstr "/net/rx/inject" →
        ∀ data, HonestWrite (i.val : Int) fd.path data v := by
  intro hall
  have hflags : senderFd.flags ≠ vfsORdonly := by decide
  have hsaid := hall sender_reached sender_file hflags (Or.inl rfl) [0x61, 0, 0x62]
  obtain ⟨hcount, hhanded⟩ := vfsWrite_handed sender_reached.wired sender_file hflags
    (Or.inl rfl) [0x61, 0, 0x62]
  have hsame := hhanded.unique (by decide) (by decide) (hsaid _ hcount)
  exact absurd hsame (by decide)

end Proof
end BumbelBee
