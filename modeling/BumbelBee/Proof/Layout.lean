import BumbelBee.Proof.FaultFree
import BumbelBee.Lib.Arena
import Mathlib.Data.Fintype.Card

/-!
# The layout of the store

`Layout s t` is what the readers rely on: the extents of the used inodes are packed behind
one another in the data area, as long as their sizes say, and the session ids are issued
from one counter. `Sound` is the part of it allocation needs, with the two facts that keep it
true for good: the mark is not below the data area, and the id counter cannot run out before
the inodes do.

`Sound.take` and `Sound.release` are the only two ways the table ever changes; every
operation preserves `Sound` by one of them, whatever the drive does.

The invariant has to survive a drive that fails at any sector. What makes this possible is that
`fs_write_trace_session` changes the tables in memory before it flushes them, so that a failed flush
loses what is on the disk but not what the next allocation goes by. What it cannot survive is a boot
from a disk on which the two disagree; hence the two conditions on the superblock beside the layout
itself.
-/

namespace BumbelBee
namespace Proof

open Lib Kernel

/-- The extent a used inode holds. -/
def extentOf (n : Inode) : Option Extent :=
  if n.used = 0 then none else some ⟨n.startLba.toNat, n.sectorCount.toNat⟩

/-- The session id a stored trace holds. -/
def sessionOf (n : Inode) : Option Nat :=
  if n.isTrace then some n.sessionId.toNat else none

/-- The bookkeeping of extents and ids. -/
structure Allocated (s : Superblock) (t : InodeTable) : Prop where
  packed : Packed fsDataStartLba.toNat s.nextFreeLba.toNat fun i => extentOf (t i)
  bounded : s.nextFreeLba ≤ fsStartLba + fsTotalSectors
  issued : Issued s.nextSessionId.toNat fun i => sessionOf (t i)

structure Layout (s : Superblock) (t : InodeTable) : Prop extends Allocated s t where
  sized : ∀ i, (t i).used ≠ 0 →
    (t i).sectorCount.toNat = max 1 (((t i).sizeBytes.toNat + 511) / 512)

def freeInodes (t : InodeTable) : Nat := (Finset.univ.filter fun i => (t i).used = 0).card

structure Sound (s : Superblock) (t : InodeTable) : Prop extends Allocated s t where
  base : fsDataStartLba ≤ s.nextFreeLba
  room : s.nextSessionId.toNat + freeInodes t < 2 ^ 32

theorem extentOf_used {n : Inode} (h : n.used ≠ 0) :
    extentOf n = some ⟨n.startLba.toNat, n.sectorCount.toNat⟩ := if_neg h

theorem extentOf_free {n : Inode} (h : n.used = 0) : extentOf n = none := if_pos h

theorem isTrace_used {n : Inode} (h : n.isTrace = true) : n.used ≠ 0 := by
  simp only [Inode.isTrace, Bool.and_eq_true, bne_iff_ne] at h
  exact h.1

theorem isTrace_free {n : Inode} (h : n.used = 0) : n.isTrace = false := by
  simp [Inode.isTrace, h]

theorem sessionOf_trace {n : Inode} (h : n.isTrace = true) :
    sessionOf n = some n.sessionId.toNat := if_pos h

theorem sessionOf_other {n : Inode} (h : n.isTrace = false) : sessionOf n = none := by
  simp [sessionOf, h]

/-- Reading a per-inode quantity of an updated table. -/
theorem map_update {β : Type} (f : Inode → β) (t : InodeTable) (i : Fin fsMaxInodes) (n : Inode) :
    (fun j => f (Function.update t i n j)) = Function.update (fun j => f (t j)) i (f n) := by
  funext j
  by_cases hj : j = i
  · subst hj; simp
  · simp [hj]

theorem Allocated.mark_le {s : Superblock} {t : InodeTable} (h : Allocated s t) :
    s.nextFreeLba.toNat ≤ 6144 := h.bounded

theorem freeInodes_take {t : InodeTable} {i : Fin fsMaxInodes} {n : Inode}
    (hfree : (t i).used = 0) (hn : n.used ≠ 0) :
    freeInodes (Function.update t i n) + 1 = freeInodes t :=
  card_free_update hfree (by simpa using hn) fun j hj => by simp [hj]

theorem freeInodes_release {t : InodeTable} {i : Fin fsMaxInodes} {n : Inode}
    (hfree : (t i).used = 0) (hn : n.used = 0) :
    freeInodes (Function.update t i n) = freeInodes t := by
  unfold freeInodes
  congr 1
  ext j
  by_cases hj : j = i
  · subst hj; simp [hfree, hn]
  · simp [hj]

/-- **A free inode given up again**: whatever record it is left with. -/
theorem Sound.release {s : Superblock} {t : InodeTable} (h : Sound s t) {i : Fin fsMaxInodes}
    {n : Inode} (hfree : (t i).used = 0) (hn : n.used = 0) :
    Sound s (Function.update t i n) where
  packed := h.packed.mono fun j e he => by
    by_cases hj : j = i
    · subst hj; simp [extentOf_free hn] at he
    · simpa [hj] using he
  bounded := h.bounded
  issued := h.issued.mono fun j m hm => by
    by_cases hj : j = i
    · subst hj; simp [sessionOf_other (isTrace_free hn)] at hm
    · simpa [hj] using hm
  base := h.base
  room := by rw [freeInodes_release hfree hn]; exact h.room

/-- What taking the extent at the mark does to the record and the superblock. -/
structure Taken (s s' : Superblock) (n : Inode) (bytes : UInt32) : Prop where
  used : n.used ≠ 0
  startLba : n.startLba = s.nextFreeLba
  sectorCount : n.sectorCount = fsSectorsFor bytes
  sizeBytes : n.sizeBytes = bytes
  nextFreeLba : s'.nextFreeLba = s.nextFreeLba + fsSectorsFor bytes
  session : n.isTrace = false ∧ s'.nextSessionId = s.nextSessionId ∨
    n.isTrace = true ∧ n.sessionId = s.nextSessionId ∧ s'.nextSessionId = s.nextSessionId + 1

/-- **A free inode given the extent at the mark**, when the space check let it. -/
theorem Sound.take {s s' : Superblock} {t : InodeTable} {n : Inode} {bytes : UInt32}
    (h : Sound s t) {i : Fin fsMaxInodes} (hfree : (t i).used = 0)
    (hspace : fsNoSpace s (fsSectorsFor bytes) = false) (hn : Taken s s' n bytes) :
    Sound s' (Function.update t i n) := by
  have hfit := (fsNoSpace_eq_false h.mark_le).mp hspace
  have hmark : s'.nextFreeLba.toNat = s.nextFreeLba.toNat + (fsSectorsFor bytes).toNat := by
    rw [hn.nextFreeLba, nextFreeLba_add_toNat h.mark_le]
  have hext : extentOf n = some ⟨s.nextFreeLba.toNat, (fsSectorsFor bytes).toNat⟩ := by
    rw [extentOf_used hn.used, hn.startLba, hn.sectorCount]
  have hleft := freeInodes_take hfree hn.used
  have hroom := h.room
  refine ⟨⟨?_, ?_, ?_⟩, ?_, ?_⟩
  · rw [map_update extentOf, hext, hmark]
    exact h.packed.alloc h.base i _
  · show s'.nextFreeLba.toNat ≤ 6144
    omega
  · rw [map_update sessionOf]
    rcases hn.session with ⟨hno, hid⟩ | ⟨htrace, hself, hid⟩
    · rw [hid]
      refine h.issued.mono fun j m hm => ?_
      by_cases hj : j = i
      · subst hj; simp [sessionOf_other hno] at hm
      · simpa [hj] using hm
    · rw [hid, sessionOf_trace htrace, hself, UInt32.toNat_add, UInt32.toNat_one,
        Nat.mod_eq_of_lt (by omega)]
      exact h.issued.issue i
  · show fsDataStartLba.toNat ≤ s'.nextFreeLba.toNat
    have hbase : fsDataStartLba.toNat ≤ s.nextFreeLba.toNat := h.base
    omega
  · have hid : s'.nextSessionId.toNat ≤ s.nextSessionId.toNat + 1 := by
      rcases hn.session with ⟨-, hid⟩ | ⟨-, -, hid⟩
      · rw [hid]; omega
      · rw [hid, UInt32.toNat_add, UInt32.toNat_one]; omega
    omega

/-- Every used inode is as `P` says. -/
def EachUsed (P : Inode → Prop) (t : InodeTable) : Prop := ∀ i, (t i).used ≠ 0 → P (t i)

/-- Every used inode has as many sectors as its size asks for. -/
abbrev Sized (t : InodeTable) : Prop :=
  EachUsed (fun n => n.sectorCount.toNat = max 1 ((n.sizeBytes.toNat + 511) / 512)) t

theorem EachUsed.update {P : Inode → Prop} {t : InodeTable} (h : EachUsed P t)
    (i : Fin fsMaxInodes) {n : Inode} (hn : n.used ≠ 0 → P n) :
    EachUsed P (Function.update t i n) := by
  intro j hj
  by_cases hji : j = i
  · subst hji
    rw [Function.update_self] at hj ⊢
    exact hn hj
  · rw [Function.update_of_ne hji] at hj ⊢
    exact h j hj

theorem Taken.sized {s s' : Superblock} {n : Inode} {bytes : UInt32} (h : Taken s s' n bytes)
    (hbytes : bytes.toNat < 2 ^ 32 - 511) :
    n.sectorCount.toNat = max 1 ((n.sizeBytes.toNat + 511) / 512) := by
  rw [h.sectorCount, h.sizeBytes, fsSectorsFor_toNat hbytes]

/-! ## Every operation keeps it

Taking an extent at the mark and giving an inode up are the only two things that happen to the
table, so these are the two steps of the invariant, for sessions and for seeded files alike.
-/

theorem freeInodes_le (t : InodeTable) : freeInodes t ≤ 32 := by
  have h := Finset.card_filter_le (Finset.univ : Finset (Fin fsMaxInodes)) fun i => (t i).used = 0
  have hcard : (Finset.univ : Finset (Fin fsMaxInodes)).card = 32 := Finset.card_fin 32
  rwa [hcard] at h

/-- A table with no used inode has the layout under any mark on the device. -/
theorem Layout.empty {s : Superblock} (h : s.nextFreeLba ≤ fsStartLba + fsTotalSectors) :
    Layout s fun _ => Inode.zero where
  packed := ⟨fun _ _ he => absurd he (by simp [extentOf, Inode.zero]),
    fun _ _ _ _ _ he => absurd he (by simp [extentOf, Inode.zero])⟩
  bounded := h
  sized _ hu := absurd rfl hu
  issued := ⟨fun _ _ hm => absurd hm (by simp [sessionOf, Inode.isTrace, Inode.zero]),
    fun _ _ _ hm => absurd hm (by simp [sessionOf, Inode.isTrace, Inode.zero])⟩

/-- The empty filesystem. -/
theorem Sound.formatted : Sound formattedSuperblock fun _ => Inode.zero where
  toAllocated := (Layout.empty (by decide)).toAllocated
  base := by decide
  room := by
    have := freeInodes_le fun _ => Inode.zero
    have hid : formattedSuperblock.nextSessionId.toNat = 1 := by decide
    omega

theorem seededInode_taken (path : List UInt8) (s : Superblock) (bytes : UInt32) :
    Taken s { s with nextFreeLba := s.nextFreeLba + fsSectorsFor bytes }
      (seededInode path s bytes) bytes where
  used := by simp [seededInode, seedInode]
  startLba := rfl
  sectorCount := rfl
  sizeBytes := rfl
  nextFreeLba := rfl
  session := Or.inl ⟨by simp [Inode.isTrace, seededInode, seedInode, inodeTypeExec,
    inodeTypeTrace], rfl⟩

theorem storedInode_taken (s : Superblock) (bytes : UInt32) (info : Option TraceSessionInfo) :
    Taken s { s with
        nextSessionId := s.nextSessionId + 1, nextFreeLba := s.nextFreeLba + fsSectorsFor bytes }
      (storedInode s bytes info) bytes where
  used := by simp [storedInode, sessionInode]
  startLba := rfl
  sectorCount := rfl
  sizeBytes := rfl
  nextFreeLba := rfl
  session := Or.inr ⟨by simp [Inode.isTrace, storedInode, sessionInode], rfl, rfl⟩

theorem Sound.seedExecFile {fs : Fs} (h : Sound fs.superblock fs.inodes)
    (path data : List UInt8) :
    Sound (fsSeedExecFile path data fs).2.superblock (fsSeedExecFile path data fs).2.inodes := by
  have hres := fsSeedExecFile_result path data fs
  generalize fsSeedExecFile path data fs = r at hres ⊢
  cases hres with
  | found i there => exact h
  | noInode missing full => exact h
  | noSpace i t missing alloc space => exact h.release (fsAllocInode_some alloc).1 rfl
  | dataFault i t a missing alloc space wrote => exact h.release (fsAllocInode_some alloc).1 rfl
  | seeded i t a missing alloc space wrote =>
    exact h.take (fsAllocInode_some alloc).1 space (seededInode_taken ..)

theorem EachUsed.seedExecFile {P : Inode → Prop} {fs : Fs} (h : EachUsed P fs.inodes)
    (path data : List UInt8) (hP : ∀ s, P (seededInode path s (bytesOf data))) :
    EachUsed P (fsSeedExecFile path data fs).2.inodes := by
  have hres := fsSeedExecFile_result path data fs
  generalize fsSeedExecFile path data fs = r at hres ⊢
  cases hres with
  | found i there => exact h
  | noInode missing full => exact h
  | noSpace i t missing alloc space => exact h.update i fun hn => absurd rfl hn
  | dataFault i t a missing alloc space wrote => exact h.update i fun hn => absurd rfl hn
  | seeded i t a missing alloc space wrote => exact h.update i fun _ => hP fs.superblock

theorem Sound.mount {fs : Fs} (h : Sound fs.superblock fs.inodes) :
    Sound (fsMount fs).superblock (fsMount fs).inodes := by
  rw [fsMount_superblock, fsMount_inodes]
  exact fsSeedExecs_induction (P := fun m => Sound m.superblock m.inodes) h
    fun path data _ _ hm => Sound.seedExecFile hm path data

theorem EachUsed.mount {P : Inode → Prop} {fs : Fs} (h : EachUsed P fs.inodes)
    (hP : ∀ path data s, data.length ≤ 256 → P (seededInode path s (bytesOf data))) :
    EachUsed P (fsMount fs).inodes := by
  rw [fsMount_inodes]
  exact fsSeedExecs_induction (P := fun m => EachUsed P m.inodes) h
    fun path data _ hlen hm => EachUsed.seedExecFile hm path data fun s => hP path data s hlen

theorem Sound.write {fs : Fs} (h : Sound fs.superblock fs.inodes) (data : List UInt8)
    (info : Option TraceSessionInfo) :
    Sound (fsWriteTraceSession data info fs).2.superblock
      (fsWriteTraceSession data info fs).2.inodes := by
  have hres := fsWriteTraceSession_result data info fs
  generalize fsWriteTraceSession data info fs = r at hres ⊢
  cases hres with
  | refused why => exact h
  | dataFault i t a online space alloc wrote => exact h.release (fsAllocInode_some alloc).1 rfl
  | stored i t a online space alloc wrote =>
    rw [fsFlushTables_memory]
    exact h.take (fsAllocInode_some alloc).1 space (storedInode_taken ..)

theorem EachUsed.write {P : Inode → Prop} {fs : Fs} (h : EachUsed P fs.inodes)
    {data : List UInt8} {info : Option TraceSessionInfo}
    (hP : ∀ s, P (storedInode s (bytesOf data) info)) :
    EachUsed P (fsWriteTraceSession data info fs).2.inodes := by
  have hres := fsWriteTraceSession_result data info fs
  generalize fsWriteTraceSession data info fs = r at hres ⊢
  cases hres with
  | refused why => exact h
  | dataFault i t a online space alloc wrote => exact h.update i fun hn => absurd rfl hn
  | stored i t a online space alloc wrote =>
    rw [fsFlushTables_memory]
    exact h.update i fun _ => hP fs.superblock

/-- The two kinds of files are sized. -/
theorem seededInode_sized (path : List UInt8) (s : Superblock) {data : List UInt8}
    (hlen : data.length < 2 ^ 32 - 511) :
    (seededInode path s (bytesOf data)).sectorCount.toNat =
      max 1 (((seededInode path s (bytesOf data)).sizeBytes.toNat + 511) / 512) :=
  (seededInode_taken path s (bytesOf data)).sized (by rw [bytesOf_toNat hlen]; exact hlen)

theorem storedInode_sized (s : Superblock) (info : Option TraceSessionInfo) {data : List UInt8}
    (hlen : data.length < 2 ^ 32 - 511) :
    (storedInode s (bytesOf data) info).sectorCount.toNat =
      max 1 (((storedInode s (bytesOf data) info).sizeBytes.toNat + 511) / 512) :=
  (storedInode_taken s (bytesOf data) info).sized (by rw [bytesOf_toNat hlen]; exact hlen)

/-- Whatever `fs_init` mounts is sound, if the medium's tables are. -/
theorem Sound.boot {a : Ata}
    (hdisk : ¬ Formatted a.sector ∨ Sound (diskSuperblock a.sector) (diskInodes a.sector))
    (h : (fsBoot a).online = true) :
    Sound (fsBoot a).superblock (fsBoot a).inodes := by
  obtain ⟨m, hm, -, hfrom⟩ := fsInit_online h
  rw [fsBoot, hm]
  refine Sound.mount ?_
  rcases hfrom with ⟨hf, hsup, hino⟩ | ⟨hsup, hino⟩
  · rw [hsup, hino]
    exact hdisk.resolve_left (not_not_intro hf)
  · rw [hsup, hino]
    exact Sound.formatted

theorem EachUsed.boot {P : Inode → Prop} {a : Ata}
    (hdisk : ¬ Formatted a.sector ∨ EachUsed P (diskInodes a.sector))
    (hP : ∀ path data s, data.length ≤ 256 → P (seededInode path s (bytesOf data)))
    (h : (fsBoot a).online = true) : EachUsed P (fsBoot a).inodes := by
  obtain ⟨m, hm, -, hfrom⟩ := fsInit_online h
  rw [fsBoot, hm]
  refine EachUsed.mount ?_ hP
  rcases hfrom with ⟨hf, -, hino⟩ | ⟨-, hino⟩
  · rw [hino]
    exact hdisk.resolve_left (not_not_intro hf)
  · rw [hino]
    exact fun _ hu => absurd rfl hu

/-! ## Runs within one boot

The drive may fail in any way within the run. It matters for what is on the disk, and the invariant
is about the tables in memory.
-/

/-- The arguments of one call of `fs_write_trace_session`. -/
structure WriteCall where
  data : List UInt8
  info : Option TraceSessionInfo

/-- The filesystem after a sequence of calls. -/
def fsWriteCalls (calls : List WriteCall) (fs : Fs) : Fs :=
  calls.foldl (fun fs c => (fsWriteTraceSession c.data c.info fs).2) fs

@[simp] theorem fsWriteCalls_nil (fs : Fs) : fsWriteCalls [] fs = fs := rfl
@[simp] theorem fsWriteCalls_cons (c : WriteCall) (calls : List WriteCall) (fs : Fs) :
    fsWriteCalls (c :: calls) fs =
      fsWriteCalls calls (fsWriteTraceSession c.data c.info fs).2 := rfl

theorem fsWriteTraceSession_online (data : List UInt8) (info : Option TraceSessionInfo) (fs : Fs) :
    (fsWriteTraceSession data info fs).2.online = fs.online := by
  have hres := fsWriteTraceSession_result data info fs
  generalize fsWriteTraceSession data info fs = r at hres ⊢
  cases hres with
  | refused => rfl
  | dataFault => rfl
  | stored => rw [fsFlushTables_memory]; rfl

theorem fsWriteCalls_online : ∀ (calls : List WriteCall) (fs : Fs),
    (fsWriteCalls calls fs).online = fs.online
  | [], _ => rfl
  | c :: calls, fs => by
    rw [fsWriteCalls_cons, fsWriteCalls_online calls, fsWriteTraceSession_online]

theorem Sound.writeCalls : ∀ (calls : List WriteCall) {fs : Fs},
    Sound fs.superblock fs.inodes →
      Sound (fsWriteCalls calls fs).superblock (fsWriteCalls calls fs).inodes
  | [], _, h => h
  | c :: calls, _, h => Sound.writeCalls calls (h.write c.data c.info)

theorem Sized.writeCalls : ∀ {calls : List WriteCall} {fs : Fs},
    (∀ c ∈ calls, c.data.length < 2 ^ 32 - 511) → Sized fs.inodes →
      Sized (fsWriteCalls calls fs).inodes
  | [], _, _, h => h
  | c :: calls, fs, hlen, h => by
    rw [fsWriteCalls_cons]
    exact Sized.writeCalls (fun d hd => hlen d (List.mem_cons_of_mem _ hd))
      (EachUsed.write h fun s => storedInode_sized s c.info (hlen c List.mem_cons_self))

/-- **The layout invariant**: over any boot of a blank disk, or of one that has the layout
    and is sound, and any run of session writes, whatever the drive does, the tables in memory
    keep the layout as long as the filesystem is online.

    `hdisk` is the disk that is booted: blank, or with the layout, a mark not below the data area
    and ids left for the free inodes. The two last conditions are not part of the layout, but
    without them the first write breaks it. `hlen` is on the data, whose size would go round
    otherwise. `honline` is all that is said of the drive. -/
theorem layout_of_run (a : Ata) (calls : List WriteCall)
    (hdisk : ¬ Formatted a.sector ∨
      Layout (diskSuperblock a.sector) (diskInodes a.sector) ∧
        fsDataStartLba ≤ (diskSuperblock a.sector).nextFreeLba ∧
        (diskSuperblock a.sector).nextSessionId.toNat + freeInodes (diskInodes a.sector) < 2 ^ 32)
    (hlen : ∀ c ∈ calls, c.data.length < 2 ^ 32 - 511)
    (honline : (fsWriteCalls calls (fsBoot a)).online = true) :
    Layout (fsWriteCalls calls (fsBoot a)).superblock (fsWriteCalls calls (fsBoot a)).inodes := by
  rw [fsWriteCalls_online] at honline
  have hsound := Sound.boot (hdisk.imp_right fun h => ⟨h.1.toAllocated, h.2.1, h.2.2⟩) honline
  have hsized : Sized _ := EachUsed.boot (hdisk.imp_right fun h => h.1.sized)
    (fun path data s hle => seededInode_sized path s (by omega)) honline
  exact ⟨(Sound.writeCalls calls hsound).toAllocated, Sized.writeCalls hlen hsized⟩

/-- A blank drive, five sessions, and a fault half way through the data of the first. -/
theorem layout_of_run_blank :
    Layout (fsWriteCalls (List.replicate 5 ⟨List.replicate 700 7, none⟩)
        (fsBoot { driveWith Superblock.zero fun _ => Inode.zero with
          script := List.replicate 14 .ok ++ [.fault 1] })).superblock
      (fsWriteCalls (List.replicate 5 ⟨List.replicate 700 7, none⟩)
        (fsBoot { driveWith Superblock.zero fun _ => Inode.zero with
          script := List.replicate 14 .ok ++ [.fault 1] })).inodes := by
  refine layout_of_run _ _ (Or.inl ?_) (fun c hc => ?_) (by decide +kernel)
  · show ¬ Formatted (driveWith Superblock.zero fun _ => Inode.zero).sector
    rw [Formatted, driveWith_superblock]
    decide
  · rw [List.eq_of_mem_replicate hc, List.length_replicate]
    decide

/-- An empty filesystem whose mark is below the data area. -/
def lowMarkDrive : Ata := driveWith { formattedSuperblock with nextFreeLba := 0 } fun _ => Inode.zero

/-- An empty filesystem that has one session id left. -/
def lastIdDrive : Ata :=
  driveWith { formattedSuperblock with nextSessionId := 0xffffffff } fun _ => Inode.zero

/-- The layout alone is not kept: both drives have it, and lose it over a healthy boot or one
    stored session. `Sound`'s two other fields exclude exactly these. -/
theorem layout_lost_lowMark_lastId :
    (Layout (diskSuperblock lowMarkDrive.sector) (diskInodes lowMarkDrive.sector) ∧
      (fsBoot lowMarkDrive).online = true ∧
      ¬ Layout (fsBoot lowMarkDrive).superblock (fsBoot lowMarkDrive).inodes) ∧
    (Layout (diskSuperblock lastIdDrive.sector) (diskInodes lastIdDrive.sector) ∧
      (fsWriteCalls [⟨[], none⟩] (fsBoot lastIdDrive)).online = true ∧
      ¬ Layout (fsWriteCalls [⟨[], none⟩] (fsBoot lastIdDrive)).superblock
        (fsWriteCalls [⟨[], none⟩] (fsBoot lastIdDrive)).inodes) := by
  refine ⟨⟨?_, by decide +kernel, fun h => ?_⟩, ?_, by decide +kernel, fun h => ?_⟩
  · rw [lowMarkDrive, driveWith_superblock, driveWith_inodes]
    exact Layout.empty (by decide)
  · -- the first seeded file starts at sector 0
    have hext : extentOf ((fsBoot lowMarkDrive).inodes ⟨0, by decide⟩) = some ⟨0, 1⟩ := by decide +kernel
    exact absurd (h.packed.within _ _ hext).1 (by decide)
  · rw [lastIdDrive, driveWith_superblock, driveWith_inodes]
    exact Layout.empty (by decide)
  · -- the counter has wrapped to 0 behind the session that took the last id
    have hid : sessionOf ((fsWriteCalls [⟨[], none⟩] (fsBoot lastIdDrive)).inodes ⟨4, by decide⟩) =
        some 0xffffffff := by decide +kernel
    exact absurd (h.issued.below _ _ hid) (by decide +kernel)

end Proof
end BumbelBee
