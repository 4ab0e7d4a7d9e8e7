import BumbelBee.Kernel.Fs
import Mathlib.Data.Fintype.Basic

/-!
# What the filesystem's operations do, once and for all

One lemma per function of `Kernel/Fs.lean`, over a drive with any script: what it returns,
what it leaves in memory, which sectors it may have put on the medium. The invariants of
the later modules are read off these cases; none of them unfolds an operation again.

A failure is a case and not an exclusion: `WriteResult` has the call that was refused, the one whose
data did not land, and the one whose data did, whatever then became of the two flushes; the last is
the one that every invariant on the disk has to be checked for.
-/

namespace BumbelBee
namespace Proof

open Lib Kernel

/-! ## Sector arithmetic -/

theorem fsSectorsFor_toNat {bytes : UInt32} (h : bytes.toNat < 2 ^ 32 - 511) :
    (fsSectorsFor bytes).toNat = max 1 ((bytes.toNat + 511) / 512) := by
  have hdiv : ((bytes + 512 - 1) / 512).toNat = (bytes.toNat + 511) / 512 := by
    rw [UInt32.toNat_div, UInt32.toNat_sub, UInt32.toNat_add]
    simp only [UInt32.reduceToNat]
    omega
  unfold fsSectorsFor
  simp only
  split
  · rename_i hz
    rw [hz] at hdiv
    simp only [UInt32.reduceToNat] at hdiv ⊢
    omega
  · rename_i hz
    have : ((bytes + 512 - 1) / 512).toNat ≠ 0 := fun h0 => hz (UInt32.toNat_inj.mp (by simpa using h0))
    omega

theorem fsSectorsFor_pos (bytes : UInt32) : 0 < (fsSectorsFor bytes).toNat := by
  unfold fsSectorsFor
  simp only
  split
  · decide
  · rename_i hz
    exact Nat.pos_of_ne_zero fun h0 => hz (UInt32.toNat_inj.mp (by simpa using h0))

/-- A file never takes more than `2 ^ 23` sectors: the quotient is by 512. -/
theorem fsSectorsFor_lt (bytes : UInt32) : (fsSectorsFor bytes).toNat < 2 ^ 23 := by
  have hlt := (bytes + 512 - 1).toNat_lt
  unfold fsSectorsFor
  simp only
  split
  · decide
  · rw [UInt32.toNat_div]
    simp only [UInt32.reduceToNat]
    omega

/-- On a mark inside the device the space check is exact: the sum cannot wrap. -/
theorem fsNoSpace_eq_false {s : Superblock} {bytes : UInt32} (hs : s.nextFreeLba.toNat ≤ 6144) :
    fsNoSpace s (fsSectorsFor bytes) = false ↔
      s.nextFreeLba.toNat + (fsSectorsFor bytes).toNat ≤ 6144 := by
  have hlt := fsSectorsFor_lt bytes
  have hlim : (fsStartLba + fsTotalSectors).toNat = 6144 := by decide
  rw [fsNoSpace, decide_eq_false_iff_not, gt_iff_lt, UInt32.lt_iff_toNat_lt, hlim,
    UInt32.toNat_add]
  omega

theorem nextFreeLba_add_toNat {s : Superblock} {bytes : UInt32}
    (hs : s.nextFreeLba.toNat ≤ 6144) :
    (s.nextFreeLba + fsSectorsFor bytes).toNat =
      s.nextFreeLba.toNat + (fsSectorsFor bytes).toNat := by
  have hlt := fsSectorsFor_lt bytes
  rw [UInt32.toNat_add]
  omega

/-! ## The inode table -/

theorem fsAllocInode_none {t : InodeTable} :
    fsAllocInode t = none ↔ ∀ i, (t i).used ≠ 0 := by
  simp [fsAllocInode, List.find?_eq_none]

theorem fsAllocInode_some {t u : InodeTable} {i : Fin fsMaxInodes}
    (h : fsAllocInode t = some (i, u)) :
    (t i).used = 0 ∧ u = Function.update t i { Inode.zero with used := 1 } := by
  simp only [fsAllocInode, Option.map_eq_some_iff, Prod.mk.injEq] at h
  obtain ⟨j, hj, rfl, hu⟩ := h
  exact ⟨by simpa using List.find?_some hj, hu.symm⟩

theorem fsFindExec_some {t : InodeTable} {path : List UInt8} {i : Fin fsMaxInodes}
    (h : fsFindExec t path = some i) : (t i).isExec ∧ (t i).nameIs path := by
  simpa using List.find?_some h

theorem fsFindSession_some {t : InodeTable} {id : UInt32} {i : Fin fsMaxInodes}
    (h : fsFindSession t id = some i) : (t i).isTrace ∧ (t i).sessionId = id := by
  simpa using List.find?_some h

/-- A session in the table is found when no other inode carries its id. -/
theorem fsFindSession_of_unique {t : InodeTable} {id : UInt32} {i : Fin fsMaxInodes}
    (hi : (t i).isTrace) (hid : (t i).sessionId = id)
    (huniq : ∀ j, (t j).isTrace → (t j).sessionId = id → j = i) :
    fsFindSession t id = some i := by
  cases hf : fsFindSession t id with
  | none =>
    have := List.find?_eq_none.mp hf i (List.mem_finRange i)
    simp [hi, hid] at this
  | some j =>
    obtain ⟨hj, hjd⟩ := fsFindSession_some hf
    rw [huniq j hj hjd]

/-- An online read of an inode is the sector loop over its extent. -/
theorem fsReadInode_some {cap : Nat} {fs : Fs} (h : fs.online = true) (i : Fin fsMaxInodes)
    (buf : Buffer cap) :
    fsReadInode (some i) buf fs =
      (fsReadSectors (fs.inodes i) (fs.inodes i).sectorCount.toNat 0 buf fs.ata).map fun r =>
        (if r.1 then some (fs.inodes i).sizeBytes else none, r.2.1, { fs with ata := r.2.2 }) := by
  obtain ⟨superblock, inodes, online, ata⟩ := fs
  subst h
  simp only [fsReadInode]
  cases fsReadSectors (inodes i) (inodes i).sectorCount.toNat 0 buf ata <;> rfl

/-! ## The sector loop -/

/-- The loop leaves the drive as ready as it was, however it ends. -/
theorem fsWriteSectors_ready (src : List UInt8) (bytes startLba : UInt32) :
    ∀ (todo : Nat) (i : UInt32) (a : Ata),
      (fsWriteSectors src bytes startLba todo i a).2.ready = a.ready
  | 0, _, _ => rfl
  | todo + 1, i, a => by
    obtain ⟨k, -, -, -, hready⟩ := ataWrite28_spec (startLba + i) [dataSector src bytes i] a
    cases hw : ataWrite28 (startLba + i) [dataSector src bytes i] a with
    | mk ok b =>
    rw [hw] at hready
    cases ok with
    | false => simpa only [fsWriteSectors, hw] using hready
    | true =>
      simp only [fsWriteSectors, hw]
      exact (fsWriteSectors_ready src bytes startLba todo (i + 1) b).trans hready

/-! ## Storing a session

`fs_write_trace_session` is cut where it may return: at its checks, behind the data, behind each of
the flushes. The memory it leaves is the same behind both flushes, and a caller that gets -1 cannot
tell which of them it was.
-/

/-- The record of a freshly stored session. -/
def storedInode (s : Superblock) (bytes : UInt32) (info : Option TraceSessionInfo) : Inode :=
  sessionInode { Inode.zero with used := 1 } s bytes (fsSectorsFor bytes) info

/-- Memory after the data sectors of a session went into inode `i`, before any flush. -/
def fsStored (fs : Fs) (i : Fin fsMaxInodes) (bytes : UInt32) (info : Option TraceSessionInfo)
    (a : Ata) : Fs :=
  { fs with
    inodes := Function.update fs.inodes i (storedInode fs.superblock bytes info)
    superblock := { fs.superblock with
      nextSessionId := fs.superblock.nextSessionId + 1
      nextFreeLba := fs.superblock.nextFreeLba + fsSectorsFor bytes }
    ata := a }

/-- `fs_flush_inodes() != 0 || fs_flush_superblock() != 0`, negated. -/
def fsFlushTables (fs : Fs) : Bool × Fs :=
  match fsFlushInodes fs with
  | (false, fs) => (false, fs)
  | (true, fs) => fsFlushSuperblock fs

/-- The `bytes` argument of a call that stores `data`. -/
abbrev bytesOf (data : List UInt8) : UInt32 := UInt32.ofNat data.length

/-- The sectors it takes. -/
abbrev sectorsOf (data : List UInt8) : UInt32 := fsSectorsFor (bytesOf data)

/-- The sector loop of a call that stores `data`. -/
abbrev fsWriteData (data : List UInt8) (fs : Fs) : Bool × Ata :=
  fsWriteSectors data (bytesOf data) fs.superblock.nextFreeLba (sectorsOf data).toNat 0 fs.ata

/-- **The three ways a call of `fs_write_trace_session` can end.** -/
inductive WriteResult (data : List UInt8) (info : Option TraceSessionInfo) (fs : Fs) :
    Option UInt32 × Fs → Prop
  | refused
      (why : fs.online = false ∨ fsNoSpace fs.superblock (sectorsOf data) = true ∨
        ∀ i, (fs.inodes i).used ≠ 0) :
      WriteResult data info fs (none, fs)
  | dataFault (i : Fin fsMaxInodes) (t : InodeTable) (a : Ata)
      (online : fs.online = true)
      (space : fsNoSpace fs.superblock (sectorsOf data) = false)
      (alloc : fsAllocInode fs.inodes = some (i, t))
      (wrote : fsWriteData data fs = (false, a)) :
      WriteResult data info fs
        (none, { fs with inodes := Function.update fs.inodes i Inode.zero, ata := a })
  | stored (i : Fin fsMaxInodes) (t : InodeTable) (a : Ata)
      (online : fs.online = true)
      (space : fsNoSpace fs.superblock (sectorsOf data) = false)
      (alloc : fsAllocInode fs.inodes = some (i, t))
      (wrote : fsWriteData data fs = (true, a)) :
      WriteResult data info fs
        (if (fsFlushTables (fsStored fs i (bytesOf data) info a)).1 then
            some fs.superblock.nextSessionId else none,
          (fsFlushTables (fsStored fs i (bytesOf data) info a)).2)

@[simp] theorem fsFlushInodes_inodes (fs : Fs) : (fsFlushInodes fs).2.inodes = fs.inodes := rfl
@[simp] theorem fsFlushInodes_superblock (fs : Fs) :
    (fsFlushInodes fs).2.superblock = fs.superblock := rfl
@[simp] theorem fsFlushInodes_online (fs : Fs) : (fsFlushInodes fs).2.online = fs.online := rfl
@[simp] theorem fsFlushSuperblock_inodes (fs : Fs) :
    (fsFlushSuperblock fs).2.inodes = fs.inodes := rfl
@[simp] theorem fsFlushSuperblock_superblock (fs : Fs) :
    (fsFlushSuperblock fs).2.superblock = fs.superblock := rfl
@[simp] theorem fsFlushSuperblock_online (fs : Fs) :
    (fsFlushSuperblock fs).2.online = fs.online := rfl

/-- Flushing never touches the tables in memory, and reaches the drive only. -/
theorem fsFlushTables_memory (fs : Fs) :
    (fsFlushTables fs).2 = { fs with ata := (fsFlushTables fs).2.ata } := by
  unfold fsFlushTables
  split <;> rename_i fs' hfs'
  · have := congrArg Prod.snd hfs'
    subst this
    rfl
  · have := congrArg Prod.snd hfs'
    subst this
    rfl

theorem fsWriteTraceSession_result (data : List UInt8) (info : Option TraceSessionInfo)
    (fs : Fs) : WriteResult data info fs (fsWriteTraceSession data info fs) := by
  unfold fsWriteTraceSession
  simp only
  split
  · rename_i hoff
    exact .refused (Or.inl (by simpa using hoff))
  · rename_i hoff
    have honline : fs.online = true := by simpa using hoff
    split
    · exact .refused (Or.inr (Or.inl ‹_›))
    · rename_i hfull
      have hspace : fsNoSpace fs.superblock (sectorsOf data) = false := by simpa using hfull
      split
      · exact .refused (Or.inr (Or.inr (fsAllocInode_none.mp ‹_›)))
      · rename_i i t halloc
        have ht := (fsAllocInode_some halloc).2
        split <;> rename_i a hdata
        · have hres : WriteResult data info fs _ :=
            .dataFault i t a honline hspace halloc hdata
          rw [ht, Function.update_idem, Function.update_self]
          exact hres
        · have hres : WriteResult data info fs _ := .stored i t a honline hspace halloc hdata
          rw [ht, Function.update_idem, Function.update_self]
          -- the two flushes of the source are `fsFlushTables` of the same memory
          have hself : ((fsStored fs i (bytesOf data) info a).inodes i).sessionId =
              fs.superblock.nextSessionId := by
            simp [fsStored, storedInode, sessionInode]
          generalize hst : fsStored fs i (bytesOf data) info a = st at hres hself
          have hst' : st = { fs with
            inodes := Function.update fs.inodes i (sessionInode { Inode.zero with used := 1 }
              fs.superblock (bytesOf data) (sectorsOf data) info)
            superblock := { fs.superblock with
              nextSessionId := fs.superblock.nextSessionId + 1
              nextFreeLba := fs.superblock.nextFreeLba + sectorsOf data }
            ata := a } := hst.symm
          rw [← hst']
          have hmem := congrArg Fs.inodes (fsFlushTables_memory st)
          simp only [fsFlushTables] at hres hmem
          split
          · rename_i fs' hfi
            simpa [hfi] using hres
          · rename_i fs' hfi
            simp only [hfi] at hres hmem ⊢
            split
            · rename_i fs'' hfs
              simpa [hfs] using hres
            · rename_i fs'' hfs
              simp only [hfs] at hres hmem ⊢
              rw [hmem, hself]
              simpa using hres

/-! ## Seeding an executable -/

/-- A `/bin` file's inode before its data is written. -/
def seedInode (path : List UInt8) : Inode :=
  { Inode.zero with used := 1, type := inodeTypeExec, name := copyName 24 path }

/-- And after: the record `fs_write_raw_file` completes. -/
def seededInode (path : List UInt8) (s : Superblock) (bytes : UInt32) : Inode :=
  { seedInode path with
    sizeBytes := bytes, startLba := s.nextFreeLba, sectorCount := fsSectorsFor bytes }

/-- **The ways a call of `fs_seed_exec_file` can end.** A failed one leaves a type and a
    name behind in an inode that is free again. -/
inductive SeedResult (path data : List UInt8) (fs : Fs) : Bool × Fs → Prop
  | found (i : Fin fsMaxInodes) (there : fsFindExec fs.inodes path = some i) :
      SeedResult path data fs (true, fs)
  | noInode (missing : fsFindExec fs.inodes path = none) (full : ∀ i, (fs.inodes i).used ≠ 0) :
      SeedResult path data fs (false, fs)
  | noSpace (i : Fin fsMaxInodes) (t : InodeTable)
      (missing : fsFindExec fs.inodes path = none)
      (alloc : fsAllocInode fs.inodes = some (i, t))
      (space : fsNoSpace fs.superblock (sectorsOf data) = true) :
      SeedResult path data fs
        (false, { fs with inodes := Function.update fs.inodes i { seedInode path with used := 0 } })
  | dataFault (i : Fin fsMaxInodes) (t : InodeTable) (a : Ata)
      (missing : fsFindExec fs.inodes path = none)
      (alloc : fsAllocInode fs.inodes = some (i, t))
      (space : fsNoSpace fs.superblock (sectorsOf data) = false)
      (wrote : fsWriteData data fs = (false, a)) :
      SeedResult path data fs
        (false, { fs with
          inodes := Function.update fs.inodes i { seedInode path with used := 0 }, ata := a })
  | seeded (i : Fin fsMaxInodes) (t : InodeTable) (a : Ata)
      (missing : fsFindExec fs.inodes path = none)
      (alloc : fsAllocInode fs.inodes = some (i, t))
      (space : fsNoSpace fs.superblock (sectorsOf data) = false)
      (wrote : fsWriteData data fs = (true, a)) :
      SeedResult path data fs
        (true, { fs with
          inodes := Function.update fs.inodes i (seededInode path fs.superblock (bytesOf data))
          superblock := { fs.superblock with
            nextFreeLba := fs.superblock.nextFreeLba + sectorsOf data }
          ata := a })

theorem fsSeedExecFile_result (path data : List UInt8) (fs : Fs) :
    SeedResult path data fs (fsSeedExecFile path data fs) := by
  unfold fsSeedExecFile
  split
  · exact .found _ ‹_›
  · rename_i hmissing
    split
    · exact .noInode hmissing (fsAllocInode_none.mp ‹_›)
    · rename_i i t halloc
      have ht := (fsAllocInode_some halloc).2
      simp only [fsWriteRawFile, ht, Function.update_self, Function.update_idem]
      cases hspace : fsNoSpace fs.superblock (sectorsOf data) with
      | true =>
        have hres : SeedResult path data fs _ := .noSpace i t hmissing halloc hspace
        simpa [seedInode] using hres
      | false =>
        cases hdata : fsWriteData data fs with
        | mk ok a =>
        cases ok with
        | false =>
          have hres : SeedResult path data fs _ := .dataFault i t a hmissing halloc hspace hdata
          simpa [hdata, seedInode, seededInode] using hres
        | true =>
          have hres : SeedResult path data fs _ := .seeded i t a hmissing halloc hspace hdata
          simpa [hdata, seedInode, seededInode] using hres

theorem fsSeedExecFile_online (path data : List UInt8) (fs : Fs) :
    (fsSeedExecFile path data fs).2.online = fs.online := by
  have hres := fsSeedExecFile_result path data fs
  generalize fsSeedExecFile path data fs = r at hres ⊢
  cases hres <;> rfl

/-- **Induction over the seeding**: what every call of `fs_seed_exec_file` preserves, seeding
    `/bin` preserves. -/
theorem fsSeedExecs_induction {P : Fs → Prop} {fs : Fs} (h : P fs)
    (step : ∀ (path data : List UInt8) (m : Fs), data.length ≤ 256 → P m →
      P (fsSeedExecFile path data m).2) : P (fsSeedExecs fs) := by
  have hfold : ∀ (files : List (List UInt8 × List UInt8)) (m : Fs),
      (∀ f ∈ files, f.2.length ≤ 256) → P m →
      P (files.foldl (fun m f => if f.2 ≠ [] then (fsSeedExecFile f.1 f.2 m).2 else m) m) := by
    intro files
    induction files with
    | nil => exact fun m _ hm => hm
    | cons f files ih =>
      intro m hlen hm
      refine ih _ (fun g hg => hlen g (List.mem_cons_of_mem _ hg)) ?_
      by_cases hf : f.2 ≠ []
      · simpa only [if_pos hf] using step f.1 f.2 m (hlen f List.mem_cons_self) hm
      · simpa only [if_neg hf] using hm
  exact hfold Kernel.seedExecs fs (fun f hf => seedExecs_length hf) h

/-! ## Loading, formatting, mounting -/

/-- The medium carries this filesystem's magic and version. -/
def Formatted (d : Nat → Sector) : Prop :=
  (diskSuperblock d).magic = fsMagic ∧ (diskSuperblock d).version = fsVersion

instance (d : Nat → Sector) : Decidable (Formatted d) := by unfold Formatted; infer_instance

/-- A healthy drive that carries these tables and no data. -/
def driveWith (s : Superblock) (t : InodeTable) : Ata where
  ready := true
  image := applyWrites (span fsStartLba.toNat [encodeSuperblock s])
    (applyWrites (span (fsStartLba.toNat + 1) (encodeTable t)) fun _ => Block.zero sectorSize)
  writes := []
  script := []

@[simp] theorem driveWith_superblock (s : Superblock) (t : InodeTable) :
    diskSuperblock (driveWith s t).sector = s := diskSuperblock_flush ..

@[simp] theorem driveWith_inodes (s : Superblock) (t : InodeTable) :
    diskInodes (driveWith s t).sector = t := by
  have hout : ∀ w ∈ span fsStartLba.toNat [encodeSuperblock s],
      w.1 < fsStartLba.toNat + 1 ∨ fsDataStartLba.toNat ≤ w.1 := fun w hw => by
    have := mem_span hw
    simp only [List.length_singleton] at this
    omega
  have himage : (driveWith s t).sector = (driveWith s t).image := rfl
  rw [himage]
  exact (diskInodes_frame hout _).trans (diskInodes_flush _ _)

/-- A load only reads; one that succeeds leaves the medium's tables in memory. -/
theorem fsLoad_spec (fs : Fs) :
    (fsLoad fs).2.online = fs.online ∧ (fsLoad fs).2.ata.sector = fs.ata.sector ∧
      (fsLoad fs).2.ata.ready = fs.ata.ready ∧
      ((fsLoad fs).1 = true → (fsLoad fs).2.superblock = diskSuperblock fs.ata.sector ∧
        (fsLoad fs).2.inodes = diskInodes fs.ata.sector) := by
  obtain ⟨k, -, hread, hall, hw, hi, hr⟩ := ataRead28_spec fsStartLba 1 fs.ata
  unfold fsLoad
  split <;> rename_i ss a hsb <;> rw [hsb] at hread hall hw hi hr
  · exact ⟨rfl, Ata.sector_congr hi hw, hr, by simp⟩
  · obtain ⟨k', -, hread', hall', hw', hi', hr'⟩ :=
      ataRead28_spec (fsStartLba + 1) fsInodeSectors a
    have hsec : a.sector = fs.ata.sector := Ata.sector_congr hi hw
    refine ⟨rfl, (Ata.sector_congr hi' hw').trans hsec, hr'.trans hr, fun hok => ⟨?_, ?_⟩⟩
    · simp only at hread
      rw [hread, hall rfl]
      rfl
    · have haddr : (fsStartLba + 1).toNat = fsStartLba.toNat + 1 := by decide
      simp only at hok ⊢
      rw [hread', hall' hok, hsec, haddr, loadInodes_readSpan]

/-- A load that fails leaves each inode as it was, or as the medium has it. -/
theorem fsLoad_inodes (fs : Fs) (i : Fin fsMaxInodes) :
    (fsLoad fs).2.inodes i = fs.inodes i ∨ (fsLoad fs).2.inodes i = diskInodes fs.ata.sector i := by
  obtain ⟨k, -, hread, hall, hw, hi, hr⟩ := ataRead28_spec fsStartLba 1 fs.ata
  unfold fsLoad
  split <;> rename_i ss a hsb <;> rw [hsb] at hread hall hw hi hr
  · exact Or.inl rfl
  · obtain ⟨k', -, hread', -⟩ := ataRead28_spec (fsStartLba + 1) fsInodeSectors a
    have hsec : a.sector = fs.ata.sector := Ata.sector_congr hi hw
    have haddr : (fsStartLba + 1).toNat = fsStartLba.toNat + 1 := by decide
    simp only [loadInodes, hread', hsec, haddr]
    split
    · rename_i s hs
      obtain ⟨hlt, rfl⟩ := List.getElem?_eq_some_iff.mp hs
      refine Or.inr ?_
      simp [readSpan, diskInodes]
    · exact Or.inl rfl

theorem fsMount_online (fs : Fs) : (fsMount fs).online = true := by
  rw [fsMount, fsFlushSuperblock_online, fsFlushInodes_online]
  refine fsSeedExecs_induction (P := fun m => m.online = true) rfl fun path data m _ hm => ?_
  rw [fsSeedExecFile_online]
  exact hm

theorem fsMount_superblock (fs : Fs) :
    (fsMount fs).superblock = (fsSeedExecs { fs with online := true }).superblock := by
  rw [fsMount, fsFlushSuperblock_superblock, fsFlushInodes_superblock]

theorem fsMount_inodes (fs : Fs) :
    (fsMount fs).inodes = (fsSeedExecs { fs with online := true }).inodes := by
  rw [fsMount, fsFlushSuperblock_inodes, fsFlushInodes_inodes]

/-- A superblock flush writes its sector or nothing. -/
theorem fsFlushSuperblock_spec (fs : Fs) :
    ∃ k, (fsFlushSuperblock fs).2.ata.sector =
        applyWrites (span fsStartLba.toNat ([encodeSuperblock fs.superblock].take k))
          fs.ata.sector ∧
      ((fsFlushSuperblock fs).1 = true → k = 1) ∧
      (fsFlushSuperblock fs).2.ata.ready = fs.ata.ready := by
  obtain ⟨k, hw, hall, hi, hr⟩ :=
    ataWrite28_spec fsStartLba [encodeSuperblock fs.superblock] fs.ata
  refine ⟨k, ?_, fun h => by simpa using hall h, hr⟩
  rw [← Ata.sector_log]
  exact Ata.sector_congr hi hw

/-- A table flush writes the first sectors of the table, all eight when it succeeds. -/
theorem fsFlushInodes_spec (fs : Fs) :
    ∃ k, (fsFlushInodes fs).2.ata.sector =
        applyWrites (span (fsStartLba.toNat + 1) ((encodeTable fs.inodes).take k))
          fs.ata.sector ∧
      ((fsFlushInodes fs).1 = true → (encodeTable fs.inodes).take k = encodeTable fs.inodes) ∧
      (fsFlushInodes fs).2.ata.ready = fs.ata.ready := by
  obtain ⟨k, hw, hall, hi, hr⟩ := ataWrite28_spec (fsStartLba + 1) (encodeTable fs.inodes) fs.ata
  refine ⟨k, ?_, fun h => by rw [hall h, List.take_length], hr⟩
  rw [← Ata.sector_log]
  exact Ata.sector_congr hi hw

/-- The filesystem `fs_format` lays out in memory. -/
def fsCleared (fs : Fs) : Fs :=
  { fs with superblock := formattedSuperblock, inodes := fun _ => Inode.zero }

theorem fsFormat_cleared (fs : Fs) : fsFormat fs = match fsFlushSuperblock (fsCleared fs) with
    | (false, fs) => (false, fs)
    | (true, fs) => fsFlushInodes fs :=
  rfl

/-- A format fills memory with an empty filesystem, and the medium too when it succeeds. -/
theorem fsFormat_spec (fs : Fs) :
    (fsFormat fs).2.superblock = formattedSuperblock ∧
      (fsFormat fs).2.inodes = (fun _ => Inode.zero) ∧
      (fsFormat fs).2.online = fs.online ∧ (fsFormat fs).2.ata.ready = fs.ata.ready ∧
      ((fsFormat fs).1 = true →
        diskSuperblock (fsFormat fs).2.ata.sector = formattedSuperblock ∧
        diskInodes (fsFormat fs).2.ata.sector = fun _ => Inode.zero) := by
  obtain ⟨k, hsec, hall, hr⟩ := fsFlushSuperblock_spec (fsCleared fs)
  have hsup := fsFlushSuperblock_superblock (fsCleared fs)
  have hino := fsFlushSuperblock_inodes (fsCleared fs)
  have hon := fsFlushSuperblock_online (fsCleared fs)
  rw [fsFormat_cleared]
  cases h1 : fsFlushSuperblock (fsCleared fs) with
  | mk ok m =>
  rw [h1] at hsec hall hr hsup hino hon
  cases ok with
  | false => exact ⟨hsup, hino, hon, hr, by simp⟩
  | true =>
    obtain ⟨k', hsec', hall', hr'⟩ := fsFlushInodes_spec m
    refine ⟨hsup, hino, hon, hr'.trans hr, fun hok => ?_⟩
    have hk : k = 1 := hall rfl
    subst hk
    have hzero : m.inodes = fun _ => Inode.zero := hino
    simp only at hok hsec ⊢
    rw [hsec', hall' hok, hsec, hzero]
    refine ⟨?_, diskInodes_flush _ _⟩
    rw [diskSuperblock_frame (fun w hw => by have := mem_span hw; omega)]
    exact diskSuperblock_flush _ _

/-- **What `fs_init` mounts** when it comes up: the tables it found on the drive, or those of
    an empty filesystem. -/
theorem fsInit_online {fs : Fs} (h : (fsInit fs).online = true) :
    ∃ m, fsInit fs = fsMount m ∧ m.ata.ready = true ∧
      (Formatted fs.ata.sector ∧ m.superblock = diskSuperblock fs.ata.sector ∧
          m.inodes = diskInodes fs.ata.sector ∨
        m.superblock = formattedSuperblock ∧ m.inodes = fun _ => Inode.zero) := by
  generalize hstart : ({ fs with ata := ataInit fs.ata, online := false } : Fs) = start
  have hsector : start.ata.sector = fs.ata.sector := by rw [← hstart]; exact ataInit_sector _
  have hoff : start.online = false := by rw [← hstart]
  simp only [fsInit, hstart] at h ⊢
  split at h
  · rw [hoff] at h; exact absurd h (by simp)
  rename_i hready
  rw [if_neg hready]
  have hready : start.ata.ready = true := by rw [← hstart]; simpa [ataIsReady] using hready
  -- what is online at the end has been loaded, the first time or after a format
  obtain ⟨hlon, hlsec, hlready, hload⟩ := fsLoad_spec start
  cases hl : fsLoad start with
  | mk loaded m =>
  rw [hl] at hlon hlsec hlready hload
  simp only [hl] at h hlon hlsec hlready hload ⊢
  split at h
  · -- the load failed, or found another filesystem: what is mounted was just formatted
    rename_i hbad
    rw [if_pos hbad]
    obtain ⟨-, -, hfon, hfready, hfdisk⟩ := fsFormat_spec m
    cases hf : fsFormat m with
    | mk formatted m' =>
    rw [hf] at hfon hfready hfdisk
    simp only [hf] at h hfon hfready hfdisk ⊢
    cases formatted with
    | false => simp [hfon, hlon, hoff] at h
    | true =>
      obtain ⟨hson, -, hsready, hsload⟩ := fsLoad_spec m'
      cases hs : fsLoad m' with
      | mk reloaded m'' =>
      rw [hs] at hson hsready hsload
      simp only [hs] at h hson hsready hsload ⊢
      cases reloaded with
      | false => simp [hson, hfon, hlon, hoff] at h
      | true =>
        obtain ⟨hsup, hino⟩ := hsload rfl
        obtain ⟨hdsup, hdino⟩ := hfdisk rfl
        exact ⟨m'', rfl, by rw [hsready, hfready, hlready, hready],
          Or.inr ⟨hsup.trans hdsup, hino.trans hdino⟩⟩
  · -- the load found this filesystem's tables
    rename_i hgood
    rw [if_neg hgood]
    simp only [Bool.or_eq_true, Bool.not_eq_true', bne_iff_ne, not_or, ne_eq, Decidable.not_not,
      Bool.not_eq_false] at hgood
    obtain ⟨⟨hok, hmagic⟩, hversion⟩ := hgood
    obtain ⟨hsup, hino⟩ := hload hok
    rw [hsector] at hsup hino
    refine ⟨m, rfl, hlready.trans hready, Or.inl ⟨⟨?_, ?_⟩, hsup, hino⟩⟩
    · rw [← hsup]; exact hmagic
    · rw [← hsup]; exact hversion

/-- **A filesystem that does not come up** has nothing in its table. -/
theorem fsInit_offline {fs : Fs} (hstart : fs.inodes = fun _ => Inode.zero)
    (h : (fsInit fs).online = false) : (fsInit fs).inodes = fun _ => Inode.zero := by
  generalize hinit : ({ fs with ata := ataInit fs.ata, online := false } : Fs) = start
  have hzero : start.inodes = fun _ => Inode.zero := by
    rw [← hinit]
    exact hstart
  simp only [fsInit, hinit] at h ⊢
  split
  · exact hzero
  rename_i hready
  rw [if_neg hready] at h
  cases hl : fsLoad start with
  | mk loaded m =>
  simp only [hl] at h ⊢
  split
  · rename_i hbad
    rw [if_pos hbad] at h
    obtain ⟨-, hcleared, -, -, hfdisk⟩ := fsFormat_spec m
    cases hf : fsFormat m with
    | mk formatted m' =>
    rw [hf] at hcleared hfdisk
    simp only [hf] at h hcleared hfdisk ⊢
    cases formatted with
    | false => exact hcleared
    | true =>
      have hload := fsLoad_inodes m'
      cases hs : fsLoad m' with
      | mk reloaded m'' =>
      rw [hs] at hload
      simp only [hs] at h hload ⊢
      cases reloaded with
      | true => rw [fsMount_online m''] at h; cases h
      | false =>
        funext i
        rcases hload i with hkept | hdisk
        · exact hkept.trans (congrFun hcleared i)
        · exact hdisk.trans (congrFun (hfdisk rfl).2 i)
  · rename_i hgood
    rw [if_neg hgood, fsMount_online m] at h
    cases h

end Proof
end BumbelBee
