import BumbelBee.Proof.FsSpec

/-!
# The filesystem over a drive that answers

`Answers a` is a drive that is ready and whose script has run out: every command completes.
Over it each operation has one outcome, and what it writes is one explicit run of sectors.

It is the drive that durability is about, and there the ways a write can end come down to two. The
lemmas are equations: what is on the disk afterwards is a list of sectors that was written, to which
anything said of `applyWrites` applies.
-/

namespace BumbelBee
namespace Proof

open Lib Kernel

/-- Ready, and every coming command completes. -/
structure Answers (a : Ata) : Prop where
  ready : a.ready = true
  script : a.script = []

theorem Answers.log {a : Ata} (h : Answers a) (ws : List (Nat × Sector)) : Answers (a.log ws) :=
  ⟨h.ready, h.script⟩

theorem Answers.next {a : Ata} (h : Answers a) : a.next = (.ok, a) := by
  rw [Ata.next, h.script]

theorem ataSelect_of_lt {lba : UInt32} {count : Nat} (hl : lba.toNat < 2 ^ 28) (hc : 0 < count) :
    ataSelectLba28 lba count = true := by
  have hle : ¬ lba > 0x0fffffff := by
    rw [gt_iff_lt, UInt32.lt_iff_toNat_lt]
    have : (0x0fffffff : UInt32).toNat = 2 ^ 28 - 1 := by decide
    omega
  have hne : (count == 0) = false := by simp; omega
  simp [ataSelectLba28, hle, hne]

theorem lt_of_ataSelect {lba : UInt32} {count : Nat} (h : ataSelectLba28 lba count = true) :
    lba.toNat < 2 ^ 28 := by
  simp only [ataSelectLba28, Bool.not_eq_true', Bool.or_eq_false_iff, decide_eq_false_iff_not,
    gt_iff_lt, UInt32.lt_iff_toNat_lt] at h
  have : (0x0fffffff : UInt32).toNat = 2 ^ 28 - 1 := by decide
  omega

theorem ataWrite28_ok {a : Ata} (h : Answers a) {lba : UInt32} {buf : List Sector}
    (hl : lba.toNat < 2 ^ 28) (hb : 0 < buf.length) :
    ataWrite28 lba buf a = (true, a.log (span lba.toNat buf)) := by
  simp [ataWrite28, h.ready, ataSelect_of_lt hl hb, h.next]

theorem ataRead28_ok {a : Ata} (h : Answers a) {lba : UInt32} {count : Nat}
    (hl : lba.toNat < 2 ^ 28) (hc : 0 < count) :
    ataRead28 lba count a = (true, readSpan a.sector lba.toNat count, a) := by
  simp [ataRead28, h.ready, ataSelect_of_lt hl hc, h.next]

/-- One sector that was read. -/
theorem ataRead28_one {lba : UInt32} {a : Ata} (h : (ataRead28 lba 1 a).1 = true) :
    ∃ s rest a', ataRead28 lba 1 a = (true, s :: rest, a') := by
  unfold ataRead28 at h ⊢
  split at h
  · cases h
  · rename_i hgo
    rw [if_neg hgo]
    split at h
    · exact ⟨_, _, _, rfl⟩
    · cases h

theorem ataInit_ok {a : Ata} (h : a.script = []) : ataInit a = { a with ready := true } := by
  simp [ataInit, Ata.next, h]

/-! ## Data sectors -/

theorem bytesOf_toNat {data : List UInt8} (hlen : data.length < 2 ^ 32 - 511) :
    (bytesOf data).toNat = data.length := UInt32.toNat_ofNat_of_lt' (by
  have : UInt32.size = 2 ^ 32 := rfl
  omega)

theorem sectorsOf_toNat {data : List UInt8} (hlen : data.length < 2 ^ 32 - 511) :
    (sectorsOf data).toNat = max 1 ((data.length + 511) / 512) := by
  have hbytes := bytesOf_toNat hlen
  rw [sectorsOf, fsSectorsFor_toNat (by omega), hbytes]

/-- Round `j` of the loop writes the `j`-th block of the data. -/
theorem dataSector_eq {data : List UInt8} (hlen : data.length < 2 ^ 32 - 511) {j : Nat}
    (hj : j < (sectorsOf data).toNat) :
    dataSector data (bytesOf data) (UInt32.ofNat j) =
      Block.pad sectorSize ((data.drop (j * sectorSize)).take sectorSize) := by
  have hbytes := bytesOf_toNat hlen
  have hcount := sectorsOf_toNat hlen
  have hoff : (UInt32.ofNat j * 512).toNat = j * 512 := by
    rw [UInt32.toNat_mul, UInt32.toNat_ofNat']
    simp only [UInt32.reduceToNat]
    omega
  have hchunk : ∀ c : UInt32, c = (if bytesOf data > UInt32.ofNat j * 512 then
      bytesOf data - UInt32.ofNat j * 512 else 0) →
      (if c > 512 then (512 : UInt32) else c).toNat = min (data.length - j * 512) 512 := by
    intro c hc
    have hcn : c.toNat = data.length - j * 512 := by
      rw [hc]
      split <;> rename_i hgt <;> rw [gt_iff_lt, UInt32.lt_iff_toNat_lt, hoff, hbytes] at hgt
      · rw [UInt32.toNat_sub_of_le _ _ (by rw [UInt32.le_iff_toNat_le]; omega), hoff, hbytes]
      · rw [UInt32.toNat_zero]; omega
    have h512 : (512 : UInt32).toNat = 512 := by decide
    split <;> rename_i hgt <;> rw [gt_iff_lt, UInt32.lt_iff_toNat_lt, h512, hcn] at hgt <;> omega
  unfold dataSector sectorSize
  simp only
  rw [hchunk _ rfl, hoff]
  congr 1
  rw [← List.length_drop, Nat.min_comm, ← List.take_take, List.take_length]

/-- The loop from round `i` on, over a drive that answers. -/
theorem fsWriteSectors_ok (src : List UInt8) (bytes startLba : UInt32) :
    ∀ (todo i : Nat) (a : Ata), Answers a → startLba.toNat + i + todo ≤ 2 ^ 28 →
      fsWriteSectors src bytes startLba todo (UInt32.ofNat i) a =
        (true, a.log (span (startLba.toNat + i)
          ((List.range' i todo).map fun j => dataSector src bytes (UInt32.ofNat j))))
  | 0, i, a, _, _ => by simp [fsWriteSectors, span]
  | todo + 1, i, a, h, hlt => by
    have hi : (UInt32.ofNat i).toNat = i := UInt32.toNat_ofNat_of_lt' (by
      have : UInt32.size = 2 ^ 32 := rfl
      omega)
    have haddr : (startLba + UInt32.ofNat i).toNat = startLba.toNat + i := by
      rw [UInt32.toNat_add]; omega
    have hw : ataWrite28 (startLba + UInt32.ofNat i) [dataSector src bytes (UInt32.ofNat i)] a =
        (true, a.log (span (startLba + UInt32.ofNat i).toNat
          [dataSector src bytes (UInt32.ofNat i)])) :=
      ataWrite28_ok h (by omega) (by simp)
    have hsucc : UInt32.ofNat i + 1 = UInt32.ofNat (i + 1) := by simp
    simp only [fsWriteSectors, hw]
    rw [hsucc, fsWriteSectors_ok src bytes startLba todo (i + 1) _ (h.log _) (by omega), haddr,
      Ata.log_log, List.range'_succ, List.map_cons]
    rfl

/-- The sectors a call that stores `data` writes. -/
def dataSectors (data : List UInt8) : List Sector :=
  (List.range (sectorsOf data).toNat).map fun j =>
    dataSector data (bytesOf data) (UInt32.ofNat j)

@[simp] theorem length_dataSectors (data : List UInt8) :
    (dataSectors data).length = (sectorsOf data).toNat := by simp [dataSectors]

/-- They are the data cut into blocks, as long as the sector count does not wrap. -/
theorem dataSectors_eq {data : List UInt8} (hlen : data.length < 2 ^ 32 - 511) :
    dataSectors data = blocks sectorSize (sectorsOf data).toNat data :=
  List.map_congr_left fun _ hj => dataSector_eq hlen (List.mem_range.mp hj)

/-- **The data of a session**, as consecutive sectors from the mark on. -/
theorem fsWriteData_ok {data : List UInt8} {fs : Fs} (h : Answers fs.ata)
    (hfit : fs.superblock.nextFreeLba.toNat + (sectorsOf data).toNat ≤ 6144) :
    fsWriteData data fs =
      (true, fs.ata.log (span fs.superblock.nextFreeLba.toNat (dataSectors data))) := by
  have hloop := fsWriteSectors_ok data (bytesOf data) fs.superblock.nextFreeLba
    (sectorsOf data).toNat 0 fs.ata h (by omega)
  rw [dataSectors, List.range_eq_range']
  exact hloop

/-- The chunk a reader copies in round `i`, as long as the round starts inside the file. -/
theorem readChunk_toNat {size : UInt32} {i : Nat} (h : i * sectorSize ≤ size.toNat) :
    (UInt32.ofNat i * 512).toNat = i * sectorSize ∧
      (if size - UInt32.ofNat i * 512 > 512 then (512 : UInt32)
        else size - UInt32.ofNat i * 512).toNat = chunkOf sectorSize size.toNat i := by
  simp only [sectorSize] at h ⊢
  have hlt := size.toNat_lt
  have hoff : (UInt32.ofNat i * 512).toNat = i * 512 := by
    rw [UInt32.toNat_mul, UInt32.toNat_ofNat']
    simp only [UInt32.reduceToNat]
    omega
  have hsub : (size - UInt32.ofNat i * 512).toNat = size.toNat - i * 512 := by
    rw [UInt32.toNat_sub_of_le _ _ (by rw [UInt32.le_iff_toNat_le, hoff]; exact h), hoff]
  refine ⟨hoff, ?_⟩
  have h512 : (512 : UInt32).toNat = 512 := by decide
  unfold chunkOf
  split <;> rename_i hgt <;> rw [gt_iff_lt, UInt32.lt_iff_toNat_lt, h512, hsub] at hgt <;> omega

/-- How many of the next `todo` commands complete before the first that does not, counting
    from the `k`-th coming one. -/
def answered (a : Ata) : Nat → Nat → Nat
  | 0, _ => 0
  | todo + 1, k => if a.outcome k = .ok then answered a todo (k + 1) + 1 else 0

theorem answered_skip (a : Ata) : ∀ todo k : Nat,
    answered (a.skip 1) todo k = answered a todo (k + 1)
  | 0, _ => rfl
  | todo + 1, k => by
    rw [answered, answered, Ata.skip_outcome, Nat.add_comm 1 k, answered_skip a todo (k + 1)]

theorem le_answered (a : Ata) : ∀ todo k j : Nat,
    j ≤ answered a todo k ↔ j ≤ todo ∧ ∀ l < j, a.outcome (k + l) = .ok
  | _, _, 0 => by simp
  | 0, _, j + 1 => by simp [answered]
  | todo + 1, k, j + 1 => by
    rw [Nat.forall_lt_succ_left', answered]
    split
    · rename_i hk
      rw [Nat.succ_le_succ_iff, Nat.succ_le_succ_iff, le_answered a todo (k + 1) j]
      simp only [Nat.add_zero, hk, true_and, Nat.add_assoc, Nat.add_comm 1]
    · rename_i hk
      exact iff_of_false (by omega) fun h => hk h.2.1

theorem answered_le (a : Ata) (todo k : Nat) : answered a todo k ≤ todo :=
  ((le_answered a todo k _).mp (Nat.le_refl _)).1

/-- **The reading loop, whatever the drive does**: the blocks that came in before the first
    failing command, copied one after the other. -/
theorem fsReadSectors_eq {cap : Nat} (n : Inode) : ∀ (todo i : Nat) (buf : Buffer cap) {a : Ata},
    a.ready = true → n.startLba.toNat + i + todo ≤ 2 ^ 28 →
    (∀ j < todo, (i + j) * sectorSize ≤ n.sizeBytes.toNat) →
      fsReadSectors n todo (UInt32.ofNat i) buf a =
        (copyBlocks sectorSize n.sizeBytes.toNat i
          (readSpan a.sector (n.startLba.toNat + i) (answered a todo 0)) buf).map fun b =>
            (answered a todo 0 == todo, b, a.skip (min todo (answered a todo 0 + 1)))
  | 0, i, buf, a, _, _, _ => by simp [fsReadSectors, answered, readSpan, copyBlocks, Except.map]
  | todo + 1, i, buf, a, h, hlt, hin => by
    -- one sector, then the rest over a drive that has answered one command
    obtain ⟨hoff, hchunk⟩ := readChunk_toNat (hin 0 (by omega))
    rw [Nat.add_zero] at hoff hchunk
    have hi : (UInt32.ofNat i).toNat = i := UInt32.toNat_ofNat_of_lt' (by
      have : UInt32.size = 2 ^ 32 := rfl
      omega)
    have haddr : (n.startLba + UInt32.ofNat i).toNat = n.startLba.toNat + i := by
      rw [UInt32.toNat_add]; omega
    have hsel : ataSelectLba28 (n.startLba + UInt32.ofNat i) 1 = true :=
      ataSelect_of_lt (by omega) Nat.one_pos
    obtain ⟨ss, hread, hss⟩ := ataRead28_eq h hsel
    by_cases hok : a.outcome 0 = .ok
    · have hread : ataRead28 (n.startLba + UInt32.ofNat i) 1 a =
          (true, [a.sector (n.startLba.toNat + i)], a.skip 1) := by
        rw [hread, hss hok, hok, haddr]
        simp [readSpan]
      have hsucc : UInt32.ofNat i + 1 = UInt32.ofNat (i + 1) := by simp
      have hans : answered a (todo + 1) 0 = answered (a.skip 1) todo 0 + 1 := by
        rw [answered, if_pos hok, answered_skip]
      simp only [fsReadSectors, hread, hoff, hchunk, hsucc, hans, readSpan_succ, copyBlocks]
      cases buf.copyInto (i * sectorSize)
          ((a.sector (n.startLba.toNat + i)).bytes.take (chunkOf sectorSize n.sizeBytes.toNat i)) with
      | error e => rfl
      | ok b =>
        have ih := fsReadSectors_eq n todo (i + 1) b (a := a.skip 1) h (by omega) fun j hj => by
          have := hin (j + 1) (by omega)
          rwa [show i + 1 + j = i + (j + 1) by omega]
        simp only [bind, Except.bind]
        rw [ih, Ata.skip_sector, Ata.skip_skip]
        simp [Nat.add_comm 1, Nat.add_assoc]
    · -- the command fails: nothing is copied any more
      have hbad : (a.outcome 0 == Outcome.ok) = false := by simpa using hok
      have hans : answered a (todo + 1) 0 = 0 := by rw [answered, if_neg hok]
      rw [hbad] at hread
      simp [fsReadSectors, hread, hans, readSpan, copyBlocks, Except.map]

/-- A drive that is not ready answers nothing. -/
theorem fsReadSectors_notReady {cap : Nat} (n : Inode) {todo : Nat} (i : UInt32)
    (buf : Buffer cap) {a : Ata} (h : a.ready = false) (htodo : 0 < todo) :
    fsReadSectors n todo i buf a = .ok (false, buf, a) := by
  obtain ⟨todo, rfl⟩ := Nat.exists_eq_succ_of_ne_zero (Nat.ne_of_gt htodo)
  simp [fsReadSectors, ataRead28, h]

/-- The reading loop over a drive that answers: the blocks of the extent, copied back. -/
theorem fsReadSectors_ok {cap : Nat} (n : Inode) (todo i : Nat) (buf : Buffer cap) {a : Ata}
    (h : Answers a) (hlt : n.startLba.toNat + i + todo ≤ 2 ^ 28)
    (hin : ∀ j < todo, (i + j) * sectorSize ≤ n.sizeBytes.toNat) :
    fsReadSectors n todo (UInt32.ofNat i) buf a =
      (copyBlocks sectorSize n.sizeBytes.toNat i
        (readSpan a.sector (n.startLba.toNat + i) todo) buf).map fun b => (true, b, a) := by
  have hall : answered a todo 0 = todo :=
    Nat.le_antisymm (answered_le a todo 0) ((le_answered a todo 0 todo).mpr
      ⟨Nat.le_refl _, fun j _ => by rw [Ata.outcome, h.script]; rfl⟩)
  have hskip : ∀ k, a.skip k = a := fun k => by
    have := h.script
    cases a
    simp_all [Ata.skip]
  rw [fsReadSectors_eq n todo i buf h.ready hlt hin, hall, hskip, beq_self_eq_true]

/-- A read that came through was of sectors the driver addresses: the wait before a sector is
    not even begun behind LBA 2²⁸ - 1. -/
theorem fsReadSectors_addressed {cap : Nat} (n : Inode) : ∀ (todo i : Nat) (buf : Buffer cap)
    {a a' : Ata} {buf' : Buffer cap}, 0 < todo → n.startLba.toNat + i < 2 ^ 32 →
    fsReadSectors n todo (UInt32.ofNat i) buf a = .ok (true, buf', a') →
      n.startLba.toNat + i + todo ≤ 2 ^ 28
  | todo + 1, i, buf, a, a', buf', _, hlt, h => by
    have hi : (UInt32.ofNat i).toNat = i := UInt32.toNat_ofNat_of_lt' (by
      have : UInt32.size = 2 ^ 32 := rfl
      omega)
    have haddr : (n.startLba + UInt32.ofNat i).toNat = n.startLba.toNat + i := by
      rw [UInt32.toNat_add, hi]
      omega
    simp only [fsReadSectors] at h
    split at h
    · rename_i s ss a₁ hread
      have hsel : ataSelectLba28 (n.startLba + UInt32.ofNat i) 1 = true := by
        by_contra hno
        rw [Bool.not_eq_true] at hno
        simp [ataRead28, hno] at hread
      have hle := lt_of_ataSelect hsel
      rw [haddr] at hle
      cases hcopy : buf.copyInto (UInt32.ofNat i * 512).toNat (s.bytes.take
          (if n.sizeBytes - UInt32.ofNat i * 512 > 512 then (512 : UInt32)
            else n.sizeBytes - UInt32.ofNat i * 512).toNat) with
      | error e =>
        rw [hcopy] at h
        cases h
      | ok b =>
        rw [hcopy] at h
        rcases Nat.eq_zero_or_pos todo with rfl | hpos
        · omega
        · have hsucc : UInt32.ofNat i + 1 = UInt32.ofNat (i + 1) := by simp
          have := fsReadSectors_addressed n todo (i + 1) b hpos (by omega) (hsucc ▸ h)
          omega
    · cases h

/-- Whatever the drive does, the loop stays in a buffer that has room for the whole file. -/
theorem fsReadSectors_fits {cap : Nat} (n : Inode) (hcap : n.sizeBytes.toNat ≤ cap) :
    ∀ (todo i : Nat) (buf : Buffer cap) (a : Ata),
      (∀ j < todo, (i + j) * sectorSize ≤ n.sizeBytes.toNat) →
      (fsReadSectors n todo (UInt32.ofNat i) buf a).isOk = true
  | 0, _, _, _, _ => rfl
  | todo + 1, i, buf, a, hin => by
    obtain ⟨hoff, hchunk⟩ := readChunk_toNat (hin 0 (by omega))
    rw [Nat.add_zero] at hoff hchunk
    simp only [fsReadSectors]
    split
    · rename_i s ss a₁ hread
      have hsucc : UInt32.ofNat i + 1 = UInt32.ofNat (i + 1) := by simp
      rw [hoff, hchunk, hsucc]
      have hroom : i * sectorSize + (s.bytes.take (chunkOf sectorSize n.sizeBytes.toNat i)).length ≤
          cap := by
        have hstart : i * sectorSize ≤ n.sizeBytes.toNat := hin 0 (by omega)
        rw [length_take_chunk, chunkOf]
        generalize i * sectorSize = offset at hstart ⊢
        omega
      obtain ⟨b, hcopy, -⟩ := Buffer.copyInto_of_le (b := buf) hroom
      simp only [hcopy, bind, Except.bind]
      refine fsReadSectors_fits n hcap todo (i + 1) b a₁ fun j hj => ?_
      have := hin (j + 1) (by omega)
      rwa [show i + 1 + j = i + (j + 1) by omega]
    · rfl

/-! ## Tables -/

/-- The two writes a session's commit consists of, inode table first. -/
def tableWrites (s : Superblock) (t : InodeTable) : List (Nat × Sector) :=
  span (fsStartLba.toNat + 1) (encodeTable t) ++ span fsStartLba.toNat [encodeSuperblock s]

theorem fsFlushInodes_ok {fs : Fs} (h : Answers fs.ata) :
    fsFlushInodes fs =
      (true, { fs with ata := fs.ata.log (span (fsStartLba.toNat + 1) (encodeTable fs.inodes)) }) := by
  have hlba : (fsStartLba + 1).toNat = fsStartLba.toNat + 1 := by decide
  rw [fsFlushInodes, ataWrite28_ok h (by decide) (by simp), hlba]

theorem fsFlushSuperblock_ok {fs : Fs} (h : Answers fs.ata) :
    fsFlushSuperblock fs =
      (true, { fs with ata := fs.ata.log (span fsStartLba.toNat [encodeSuperblock fs.superblock]) }) := by
  rw [fsFlushSuperblock, ataWrite28_ok h (by decide) (by simp)]

theorem fsFlushTables_ok {fs : Fs} (h : Answers fs.ata) :
    fsFlushTables fs =
      (true, { fs with ata := fs.ata.log (tableWrites fs.superblock fs.inodes) }) := by
  simp only [fsFlushTables, fsFlushInodes_ok h]
  rw [fsFlushSuperblock_ok (h.log _)]
  simp only [Ata.log_log, tableWrites]

theorem fsLoad_ok {fs : Fs} (h : Answers fs.ata) :
    fsLoad fs = (true, { fs with
      superblock := diskSuperblock fs.ata.sector, inodes := diskInodes fs.ata.sector }) := by
  have hlba : (fsStartLba + 1).toNat = fsStartLba.toNat + 1 := by decide
  simp only [fsLoad, ataRead28_ok h (show fsStartLba.toNat < 2 ^ 28 by decide) Nat.one_pos,
    ataRead28_ok h (show (fsStartLba + 1).toNat < 2 ^ 28 by decide)
      (show 0 < fsInodeSectors by decide), hlba, loadInodes_readSpan]
  rfl

/-! ## Whole operations

Each operation is an equation between states. The writes are listed in the order they reach the
drive, since a reset cuts that list.
-/

/-- The superblock after a session of `data`. -/
def storedSuperblock (s : Superblock) (data : List UInt8) : Superblock :=
  { s with nextSessionId := s.nextSessionId + 1, nextFreeLba := s.nextFreeLba + sectorsOf data }

/-- The inode table after it. -/
def storedTable (fs : Fs) (i : Fin fsMaxInodes) (data : List UInt8)
    (info : Option TraceSessionInfo) : InodeTable :=
  Function.update fs.inodes i (storedInode fs.superblock (bytesOf data) info)

/-- Every sector write of a session stored in inode `i`, in order: data, inode table,
    superblock. -/
def sessionWrites (fs : Fs) (i : Fin fsMaxInodes) (data : List UInt8)
    (info : Option TraceSessionInfo) : List (Nat × Sector) :=
  span fs.superblock.nextFreeLba.toNat (dataSectors data) ++
    tableWrites (storedSuperblock fs.superblock data) (storedTable fs i data info)

/-- The filesystem after a session was stored in inode `i`. -/
def fsCommitted (fs : Fs) (i : Fin fsMaxInodes) (data : List UInt8)
    (info : Option TraceSessionInfo) : Fs :=
  { fs with
    superblock := storedSuperblock fs.superblock data
    inodes := storedTable fs i data info
    ata := fs.ata.log (sessionWrites fs i data info) }

/-- What keeps a call from storing anything. -/
def Refuses (fs : Fs) (data : List UInt8) : Prop :=
  fs.online = false ∨ 6144 < fs.superblock.nextFreeLba.toNat + (sectorsOf data).toNat ∨
    ∀ i, (fs.inodes i).used ≠ 0

/-- **A call over a drive that answers**: refused and without effect, or stored. -/
theorem fsWriteTraceSession_ok {data : List UInt8} (info : Option TraceSessionInfo) {fs : Fs}
    (h : Answers fs.ata) (hmark : fs.superblock.nextFreeLba.toNat ≤ 6144) :
    (Refuses fs data ∧ fsWriteTraceSession data info fs = (none, fs)) ∨
    ∃ i t, fs.online = true ∧
      fs.superblock.nextFreeLba.toNat + (sectorsOf data).toNat ≤ 6144 ∧
      fsAllocInode fs.inodes = some (i, t) ∧
      fsWriteTraceSession data info fs =
        (some fs.superblock.nextSessionId, fsCommitted fs i data info) := by
  have hexact : fsNoSpace fs.superblock (sectorsOf data) = false ↔ _ := fsNoSpace_eq_false hmark
  have hres := fsWriteTraceSession_result data info fs
  generalize fsWriteTraceSession data info fs = r at hres ⊢
  cases hres with
  | refused why =>
    refine Or.inl ⟨?_, rfl⟩
    rcases why with hoff | hfull | hnone
    · exact Or.inl hoff
    · refine Or.inr (Or.inl (Nat.lt_of_not_le fun hle => ?_))
      rw [hexact.mpr hle] at hfull
      exact absurd hfull (by simp)
    · exact Or.inr (Or.inr hnone)
  | dataFault i t a online space alloc wrote =>
    rw [fsWriteData_ok h (hexact.mp space)] at wrote
    exact absurd (congrArg Prod.fst wrote) (by simp)
  | stored i t a online space alloc wrote =>
    have hfit := hexact.mp space
    rw [fsWriteData_ok h hfit, Prod.mk.injEq] at wrote
    obtain ⟨-, rfl⟩ := wrote
    refine Or.inr ⟨i, t, online, hfit, alloc, ?_⟩
    rw [fsFlushTables_ok (h.log _), if_pos rfl]
    simp only [fsStored, Ata.log_log]
    rfl

/-- A mount over a drive that answers ends with both tables flushed. -/
theorem fsMount_ok {fs : Fs} (h : Answers (fsSeedExecs { fs with online := true }).ata) :
    fsMount fs = (fsFlushTables (fsSeedExecs { fs with online := true })).2 := by
  simp only [fsMount, fsFlushTables, fsFlushInodes_ok h]

/-- Memory once the tables of a drive were loaded, not yet online. -/
def loadedFs (a : Ata) : Fs where
  superblock := diskSuperblock a.sector
  inodes := diskInodes a.sector
  online := false
  ata := { a with ready := true }

/-- A boot from a drive that carries this filesystem mounts what is on it. -/
theorem fsInit_formatted {fs : Fs} (h : fs.ata.script = []) (hf : Formatted fs.ata.sector) :
    fsInit fs = fsMount (loadedFs fs.ata) := by
  have hans : Answers { fs.ata with ready := true } := ⟨rfl, h⟩
  have hsec : ({ fs.ata with ready := true } : Ata).sector = fs.ata.sector := rfl
  have hload : fsLoad { fs with ata := { fs.ata with ready := true }, online := false } = _ :=
    fsLoad_ok hans
  simp only [fsInit, ataInit_ok h, ataIsReady, hload, hsec, hf.1, hf.2]
  simp [loadedFs]

/-- A format over a drive that answers leaves the empty tables in memory and on the medium. -/
theorem fsFormat_ok {fs : Fs} (h : Answers fs.ata) :
    ∃ a, Answers a ∧ fsFormat fs = (true, { fsCleared fs with ata := a }) ∧
      diskSuperblock a.sector = formattedSuperblock ∧
      diskInodes a.sector = fun _ => Inode.zero := by
  have hsb : fsFlushSuperblock (fsCleared fs) = _ := fsFlushSuperblock_ok h
  have hfmt : ∃ a, Answers a ∧ fsFormat fs = (true, { fsCleared fs with ata := a }) := by
    rw [fsFormat_cleared, hsb]
    simp only
    rw [fsFlushInodes_ok (h.log _)]
    exact ⟨_, (h.log _).log _, rfl⟩
  obtain ⟨a, ha, heq⟩ := hfmt
  have hdisk := (fsFormat_spec fs).2.2.2.2
  rw [heq] at hdisk
  exact ⟨a, ha, heq, (hdisk rfl).1, (hdisk rfl).2⟩

/-- A boot from any other drive formats it first. -/
theorem fsInit_unformatted {fs : Fs} (h : fs.ata.script = []) (hf : ¬ Formatted fs.ata.sector) :
    ∃ a, Answers a ∧ fsInit fs = fsMount {
      superblock := formattedSuperblock, inodes := fun _ => Inode.zero
      online := false, ata := a } := by
  have hans : Answers { fs.ata with ready := true } := ⟨rfl, h⟩
  have hsec : ({ fs.ata with ready := true } : Ata).sector = fs.ata.sector := rfl
  have hload : fsLoad { fs with ata := { fs.ata with ready := true }, online := false } = _ :=
    fsLoad_ok hans
  have hbad : ((diskSuperblock fs.ata.sector).magic != fsMagic ||
      (diskSuperblock fs.ata.sector).version != fsVersion) = true := by
    rw [Formatted, not_and_or] at hf
    simpa using hf
  obtain ⟨a, ha, hfmt, hdsup, hdino⟩ := fsFormat_ok (show Answers (loadedFs fs.ata).ata from hans)
  have hreload : fsLoad { fsCleared (loadedFs fs.ata) with ata := a } = _ := fsLoad_ok ha
  refine ⟨a, ha, ?_⟩
  simp only [fsInit, ataInit_ok h, ataIsReady, hload, hsec]
  rw [if_neg (by simp), Bool.not_true, Bool.false_or, if_pos hbad,
    show ({ superblock := diskSuperblock fs.ata.sector, inodes := diskInodes fs.ata.sector
            online := false, ata := { fs.ata with ready := true } } : Fs) = loadedFs fs.ata from rfl,
    hfmt]
  simp only [hreload, hdsup, hdino]
  rfl

theorem fsBoot_formatted {a : Ata} (h : a.script = []) (hf : Formatted a.sector) :
    fsBoot a = fsMount (loadedFs a) := by
  rw [fsBoot]
  exact @fsInit_formatted ⟨_, _, _, a⟩ h hf

theorem fsBoot_unformatted {a : Ata} (h : a.script = []) (hf : ¬ Formatted a.sector) :
    ∃ b, Answers b ∧ fsBoot a = fsMount {
      superblock := formattedSuperblock, inodes := fun _ => Inode.zero
      online := false, ata := b } := by
  rw [fsBoot]
  exact @fsInit_unformatted ⟨_, _, _, a⟩ h hf

end Proof
end BumbelBee
