import BumbelBee.Proof.Durable

/-!
# A reset in the middle of a session write

A session write is one log of sectors: the data, the eight sectors of the inode table, the
superblock. A reset keeps a prefix of it (`resetDrive`). Cut before the table sector of the
new inode, the drive is the one the call started on with some free sectors overwritten; cut
behind the superblock it is the one the call ends with. In between (`TornCommit`) the drive
carries the new inode under the old counters, and the next session is given its extent and
its id.

The window is as long as the part of the table behind the sector of the new inode, and one sector
more. Nothing closes it: `fs_init` takes the superblock as it is and does not go through the inodes,
so the counters that a cut has left behind stay behind. `crash_torn` is a disk of this kind, and the
other modules ask for `Sound` where it would make a difference.
-/

namespace BumbelBee
namespace Proof

open Lib Kernel

/-- The drive a machine comes back up on when it is reset after `p` sector writes of a call
    that starts on `fs`. -/
def resetDrive (fs : Fs) (c : WriteCall) (p : Nat) : Ata :=
  { (fsWriteTraceSession c.data c.info fs).2.ata with
    writes := (fsWriteTraceSession c.data c.info fs).2.ata.writes.take (fs.ata.writes.length + p) }

/-- `p` sector writes into the call, the new inode is on the drive and the superblock behind
    it is not. -/
def TornCommit (fs : Fs) (data : List UInt8) (p : Nat) : Prop :=
  fs.superblock.nextFreeLba.toNat + (sectorsOf data).toNat ≤ 6144 ∧
    ∃ i, (fsAllocInode fs.inodes).map Prod.fst = some i ∧
      (sectorsOf data).toNat + inodeSector i < p ∧ p < (sectorsOf data).toNat + 9

@[simp] theorem length_tableWrites (s : Superblock) (t : InodeTable) :
    (tableWrites s t).length = 9 := by simp [tableWrites]

theorem length_sessionWrites (fs : Fs) (i : Fin fsMaxInodes) (data : List UInt8)
    (info : Option TraceSessionInfo) :
    (sessionWrites fs i data info).length = (sectorsOf data).toNat + 9 := by
  simp [sessionWrites]

/-- **A cut before the new inode's table sector** leaves a mounted filesystem as it was, but
    for sectors nobody owns. -/
theorem Mounted.cut {fs : Fs} (h : Mounted fs) {i : Fin fsMaxInodes} {t : InodeTable}
    (halloc : fsAllocInode fs.inodes = some (i, t)) (data : List UInt8)
    (info : Option TraceSessionInfo) {p : Nat} (hp : p ≤ (sectorsOf data).toNat + inodeSector i) :
    Mounted { fs with ata := fs.ata.log ((sessionWrites fs i data info).take p) } ∧
      Keeps fs { fs with ata := fs.ata.log ((sessionWrites fs i data info).take p) } := by
  have hbase : fsDataStartLba.toNat ≤ fs.superblock.nextFreeLba.toNat := h.sound.base
  have hstop : fsDataStartLba.toNat = fsStartLba.toNat + 1 + 8 := by decide
  have hsec : (inodeSector i).val < 8 := (inodeSector i).isLt
  -- what the prefix consists of: data, then table sectors before the inode's
  obtain ⟨ds, k, hk, hds, htake⟩ : ∃ ds k, k ≤ (inodeSector i).val ∧
      (∀ w ∈ ds, fs.superblock.nextFreeLba.toNat ≤ w.1) ∧
      (sessionWrites fs i data info).take p =
        ds ++ span (fsStartLba.toNat + 1) ((encodeTable (storedTable fs i data info)).take k) := by
    refine ⟨(span fs.superblock.nextFreeLba.toNat (dataSectors data)).take p,
      p - (sectorsOf data).toNat, by omega,
      fun w hw => (mem_span (List.mem_of_mem_take hw)).1, ?_⟩
    rw [sessionWrites, List.take_append, length_span, length_dataSectors, tableWrites,
      List.take_append_of_le_length (by simp; omega), take_span (p - (sectorsOf data).toNat)]
  have hmem : ∀ w ∈ ds ++ span (fsStartLba.toNat + 1)
      ((encodeTable (storedTable fs i data info)).take k),
      w.1 ≠ fsStartLba.toNat ∧
        (w.1 < fsDataStartLba.toNat ∨ fs.superblock.nextFreeLba.toNat ≤ w.1) := fun w hw => by
    rcases List.mem_append.mp hw with hw | hw
    · have := hds w hw
      exact ⟨by omega, Or.inr this⟩
    · have := mem_span hw
      simp only [List.length_take, length_encodeTable] at this
      exact ⟨by omega, Or.inl (by omega)⟩
  rw [htake]
  refine ⟨⟨⟨h.answers.log _, h.sound, h.magic, h.version⟩, h.online, ?_, ?_⟩,
    Keeps.ofWrites h.sound.toAllocated (fun w hw => (hmem w hw).2) (Ata.sector_log _ _)
      fun _ _ => rfl⟩
  · rw [Ata.sector_log, diskSuperblock_frame fun w hw => (hmem w hw).1]
    exact h.diskSuperblock
  · funext j
    rw [Ata.sector_log, applyWrites_append, diskInodes_flush_take,
      diskInodes_frame (fun w hw => Or.inr (by have := hds w hw; omega)), h.diskInodes]
    split
    · -- a table sector that was rewritten holds other inodes than the new one
      rename_i hj
      exact Function.update_of_ne (fun heq => by subst heq; omega) _ _
    · rfl

/-- **A reset outside the torn window**: the drive boots like a mounted filesystem that keeps
    everything. -/
theorem Mounted.reset {fs : Fs} (h : Mounted fs) (c : WriteCall) {p : Nat}
    (hp : ¬ TornCommit fs c.data p) :
    ∃ m, Mounted m ∧ Keeps fs m ∧ m.ata = resetDrive fs c p := by
  rcases fsWriteTraceSession_ok c.info h.answers h.sound.mark_le with ⟨-, hr⟩ | ⟨i, t, -, hfit, halloc, hr⟩
  · refine ⟨fs, h, Keeps.refl fs, ?_⟩
    rw [resetDrive, hr, List.take_of_length_le (by simp)]
  · have hwindow : p ≤ (sectorsOf c.data).toNat + inodeSector i ∨
        (sectorsOf c.data).toNat + 9 ≤ p := by
      by_contra hcon
      exact hp ⟨hfit, i, by rw [halloc]; rfl, by omega, by omega⟩
    have hdrive : resetDrive fs c p = fs.ata.log ((sessionWrites fs i c.data c.info).take p) := by
      rw [resetDrive, hr]
      simp only [fsCommitted, Ata.log, List.take_length_add_append]
    rcases hwindow with hlow | hhigh
    · obtain ⟨hm, hk⟩ := h.cut halloc c.data c.info hlow
      exact ⟨_, hm, hk, hdrive.symm⟩
    · obtain ⟨hm, hk, -⟩ := h.write c.data c.info
      refine ⟨_, hm, hk, ?_⟩
      rw [hdrive, List.take_of_length_le (by rw [length_sessionWrites]; exact hhigh), hr]
      rfl

/-- **Crash consistency outside the window**: extents stay disjoint, ids distinct, and every
    session that had been stored reads back.

    `hscript` is a drive that answers: a reset is the only thing that goes wrong. `hdisk` is the
    disk the machine was first booted from, one that carries nothing of this filesystem or one whose
    tables are sound. `before` and `after` are any writes and reboots, `c` is the write that is cut
    off, and `p` how many of its sectors have reached the drive; `hp` leaves out the window, and
    nothing else. -/
theorem crash_consistent (a : Ata) (hscript : a.script = [])
    (hdisk : ¬ Formatted a.sector ∨ Sound (diskSuperblock a.sector) (diskInodes a.sector))
    (before after : List FsOp) (c : WriteCall) (p : Nat)
    (hp : ¬ TornCommit (fsRun before (fsBoot a)) c.data p) :
    let fs := fsRun after (fsBoot (resetDrive (fsRun before (fsBoot a)) c p))
    (∀ i j e f, i ≠ j → extentOf (fs.inodes i) = some e → extentOf (fs.inodes j) = some f →
        e.Disjoint f) ∧
      (∀ i j n, sessionOf (fs.inodes i) = some n → sessionOf (fs.inodes j) = some n → i = j) ∧
      ∀ pre post data info id fs', before = pre ++ .write ⟨data, info⟩ :: post →
        data.length < 2 ^ 32 - 511 →
        fsWriteTraceSession data info (fsRun pre (fsBoot a)) = (some id, fs') →
        ∀ (cap : Nat) (buf : Buffer cap), data.length ≤ cap → ∃ buf',
          fsReadTraceSession id buf fs = .ok (some (UInt32.ofNat data.length), buf', fs) ∧
            buf'.contents data.length = data := by
  intro fs
  have hboot := Mounted.boot hscript hdisk
  obtain ⟨m, hm, hkm, hdrive⟩ := (Mounted.run before hboot).1.reset c hp
  obtain ⟨hreboot, hkr⟩ := hm.reboot
  obtain ⟨hrun, hka⟩ := Mounted.run after hreboot
  rw [hdrive] at hkr hrun hka
  refine ⟨fun i j e f => hrun.sound.packed.apart i j e f,
    fun i j n => hrun.sound.issued.distinct i j n, ?_⟩
  intro pre post data info id fs' hsplit hlen hstored cap buf hcap
  obtain ⟨hwrite, -, hheld⟩ := (Mounted.run pre hboot).1.write data info
  simp only [hstored] at hwrite hheld
  obtain ⟨-, i, -, hholds⟩ := hheld id rfl
  have hpost : Keeps fs' (fsRun before (fsBoot a)) := by
    have hrest : fsRun before (fsBoot a) = fsRun post fs' := by
      simp only [hsplit, fsRun, List.foldl_append, List.foldl_cons, FsOp.run]
      exact congrArg (fun r => List.foldl _ (Prod.snd r) post) hstored
    rw [hrest]
    exact (Mounted.run post hwrite).2
  exact ((hholds.keeps (hpost.trans (hkm.trans (hkr.trans hka)))).recalls hrun).read hlen buf hcap

/-- One session stored on a blank drive, and the machine reset two sector writes into the
    next: one short of the window. -/
def resetStore : Fs :=
  fsRun [.write ⟨[2], none⟩]
    (fsBoot (resetDrive (fsRun [.write ⟨[9], none⟩] (fsBoot blankDrive)) ⟨[1], none⟩ 2))

theorem crash_consistent_resetStore :
    ∃ buf', fsReadTraceSession 1 (⟨fun _ => 0⟩ : Buffer 512) resetStore =
      .ok (some (UInt32.ofNat 1), buf', resetStore) ∧ buf'.contents 1 = [9] := by
  have hid : (fsWriteTraceSession [9] none (fsBoot blankDrive)).1 = some 1 := by decide +kernel
  have hstored : fsWriteTraceSession [9] none (fsBoot blankDrive) =
      (some 1, (fsWriteTraceSession [9] none (fsBoot blankDrive)).2) := by rw [← hid]
  refine (crash_consistent blankDrive rfl (Or.inl blankDrive_not_formatted)
    [.write ⟨[9], none⟩] [.write ⟨[2], none⟩] ⟨[1], none⟩ 2 ?_).2.2 [] [] [9] none 1 _ rfl
      (by decide) hstored 512 ⟨fun _ => 0⟩ (by decide)
  rintro ⟨-, i, hi, hlow, -⟩
  have halloc : (fsAllocInode (fsRun [.write ⟨[9], none⟩] (fsBoot blankDrive)).inodes).map
      Prod.fst = some ⟨5, by decide⟩ := by decide +kernel
  rw [halloc, Option.some.injEq] at hi
  subst hi
  exact absurd hlow (by decide)

/-- Two calls on a blank drive, the machine reset three sector writes into the first. -/
def tornStore : Fs :=
  fsRun [.write ⟨[2], none⟩] (fsBoot (resetDrive (fsBoot blankDrive) ⟨[1], none⟩ 3))

/-- That reset is in the window: the new inode's table sector is written, the superblock is
    not. The session written after the reboot gets the first one's sector and its id. -/
theorem crash_torn :
    TornCommit (fsBoot blankDrive) [1] 3 ∧
      ¬ (∀ i j e f, i ≠ j → extentOf (tornStore.inodes i) = some e →
        extentOf (tornStore.inodes j) = some f → e.Disjoint f) ∧
      ¬ (∀ i j n, sessionOf (tornStore.inodes i) = some n →
        sessionOf (tornStore.inodes j) = some n → i = j) := by
  have hextents : extentOf (tornStore.inodes ⟨4, by decide⟩) = some ⟨2061, 1⟩ ∧
      extentOf (tornStore.inodes ⟨5, by decide⟩) = some ⟨2061, 1⟩ ∧
      sessionOf (tornStore.inodes ⟨4, by decide⟩) = some 1 ∧
      sessionOf (tornStore.inodes ⟨5, by decide⟩) = some 1 := by decide +kernel
  obtain ⟨he, hf, hm, hn⟩ := hextents
  refine ⟨⟨by decide +kernel, ⟨4, by decide⟩, by decide +kernel, by decide +kernel, by decide +kernel⟩,
    fun h => ?_, fun h => ?_⟩
  · exact absurd (h _ _ _ _ (by decide) he hf) (by decide)
  · exact absurd (h _ _ _ hm hn) (by decide)

end Proof
end BumbelBee
