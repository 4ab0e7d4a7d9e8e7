import BumbelBee.Proof.Layout

/-!
# Durability of stored sessions

Over a drive that answers, every operation is append-only. `Keeps fs fs'` says it: the used
inodes and the sectors of their extents are in `fs'` what they were in `fs`. It is a
preorder, every session write and every reboot of a mounted filesystem is one of its steps,
and a session the store `Holds` is held by everything that keeps it. Reading it back is then
a fact about one state.

A reader asks for an id and not for an inode, so holding a session is not enough to give it back.
Three notions are kept apart. `Holds` is about the inode and the sectors; `Finds` says that the id
leads to that inode; `Recalls` that the drive can be asked for it. On a store that is `Mounted`,
where ids are fresh and extents free, the first gives the other two (`Holds.recalls`), now and after
whatever else is stored (`Holds.later`). On others it does not: `trace_store_lost_earlyMark` is a
disk whose mark lies in front of the data area, and there the flush at the end of a write goes over
what was just written.
-/

namespace BumbelBee
namespace Proof

open Lib Kernel

/-- What used inodes record, and the sectors they own, is still there. -/
structure Keeps (fs fs' : Fs) : Prop where
  inode : ∀ i, (fs.inodes i).used ≠ 0 → fs'.inodes i = fs.inodes i
  sector : ∀ i e, extentOf (fs.inodes i) = some e →
    ∀ x, e.start ≤ x → x < e.stop → fs'.ata.sector x = fs.ata.sector x

theorem Keeps.refl (fs : Fs) : Keeps fs fs := ⟨fun _ _ => rfl, fun _ _ _ _ _ _ => rfl⟩

theorem Keeps.trans {fs fs' fs'' : Fs} (h : Keeps fs fs') (h' : Keeps fs' fs'') :
    Keeps fs fs'' where
  inode i hi := by
    have hsame := h.inode i hi
    rw [h'.inode i (by rwa [hsame]), hsame]
  sector i e he x hlo hhi := by
    have hused : (fs.inodes i).used ≠ 0 := fun h0 => by rw [extentOf_free h0] at he; cases he
    rw [h'.sector i e (by rwa [h.inode i hused]) x hlo hhi, h.sector i e he x hlo hhi]

/-- Writes outside the allocated part of the data area keep every extent. -/
theorem Keeps.ofWrites {fs fs' : Fs} {ws : List (Nat × Sector)}
    (hal : Allocated fs.superblock fs.inodes)
    (hws : ∀ w ∈ ws, w.1 < fsDataStartLba.toNat ∨ fs.superblock.nextFreeLba.toNat ≤ w.1)
    (hsec : fs'.ata.sector = applyWrites ws fs.ata.sector)
    (hino : ∀ i, (fs.inodes i).used ≠ 0 → fs'.inodes i = fs.inodes i) : Keeps fs fs' where
  inode := hino
  sector i e he x hlo hhi := by
    have hin := hal.packed.within i e he
    rw [hsec, applyWrites_frame fun w hw => ?_]
    have := hws w hw
    omega

/-- Only a free inode changed. -/
theorem update_used {t : InodeTable} {i : Fin fsMaxInodes} (hfree : (t i).used = 0) (n : Inode)
    (j : Fin fsMaxInodes) (hj : (t j).used ≠ 0) : Function.update t i n j = t j :=
  Function.update_of_ne (fun h => hj (by rw [h]; exact hfree)) _ _

/-! ## The states between two operations

Between two calls the tables on the disk are those in memory, over a drive that answers; a boot and
a write both end so. It is this that makes a reboot do nothing to what is stored.
-/

/-- A filesystem in memory, on a drive that answers. -/
structure Steady (fs : Fs) : Prop where
  answers : Answers fs.ata
  sound : Sound fs.superblock fs.inodes
  magic : fs.superblock.magic = fsMagic
  version : fs.superblock.version = fsVersion

/-- And one whose tables are on the medium too. -/
structure Mounted (fs : Fs) : Prop extends Steady fs where
  online : fs.online = true
  diskSuperblock : diskSuperblock fs.ata.sector = fs.superblock
  diskInodes : diskInodes fs.ata.sector = fs.inodes

theorem mem_tableWrites {s : Superblock} {t : InodeTable} {w : Nat × Sector}
    (h : w ∈ tableWrites s t) : fsStartLba.toNat ≤ w.1 ∧ w.1 < fsDataStartLba.toNat := by
  have hstop : fsDataStartLba.toNat = fsStartLba.toNat + 1 + 8 := by decide
  rcases List.mem_append.mp h with h | h
  · have := mem_span h
    rw [length_encodeTable] at this
    omega
  · have := mem_span h
    rw [List.length_singleton] at this
    omega

theorem diskSuperblock_tableWrites (s : Superblock) (t : InodeTable) (d : Nat → Sector) :
    Kernel.diskSuperblock (applyWrites (tableWrites s t) d) = s := by
  rw [tableWrites, applyWrites_append]
  exact diskSuperblock_flush ..

theorem diskInodes_tableWrites (s : Superblock) (t : InodeTable) (d : Nat → Sector) :
    Kernel.diskInodes (applyWrites (tableWrites s t) d) = t := by
  rw [tableWrites, applyWrites_append, diskInodes_frame, diskInodes_flush]
  intro w hw
  have := mem_span hw
  rw [List.length_singleton] at this
  omega

/-- Flushing both tables of a steady filesystem mounts it. -/
theorem Steady.flush {fs : Fs} (h : Steady fs) (honline : fs.online = true) :
    Mounted (fsFlushTables fs).2 ∧ Keeps fs (fsFlushTables fs).2 := by
  rw [fsFlushTables_ok h.answers]
  refine ⟨⟨⟨h.answers.log _, h.sound, h.magic, h.version⟩, honline, ?_, ?_⟩, ?_⟩
  · rw [Ata.sector_log]; exact diskSuperblock_tableWrites ..
  · rw [Ata.sector_log]; exact diskInodes_tableWrites ..
  · exact Keeps.ofWrites h.sound.toAllocated (fun w hw => Or.inl (mem_tableWrites hw).2)
      (Ata.sector_log _ _) fun _ _ => rfl

theorem Steady.seedExecFile {fs : Fs} (h : Steady fs) (path data : List UInt8) :
    Steady (fsSeedExecFile path data fs).2 ∧ Keeps fs (fsSeedExecFile path data fs).2 := by
  have hsound := h.sound.seedExecFile path data
  have hres := fsSeedExecFile_result path data fs
  generalize fsSeedExecFile path data fs = r at hres hsound ⊢
  cases hres with
  | found i there => exact ⟨h, Keeps.refl fs⟩
  | noInode missing full => exact ⟨h, Keeps.refl fs⟩
  | noSpace i t missing alloc space =>
    exact ⟨⟨h.answers, hsound, h.magic, h.version⟩,
      update_used (fsAllocInode_some alloc).1 _, fun _ _ _ _ _ _ => rfl⟩
  | dataFault i t a missing alloc space wrote =>
    rw [fsWriteData_ok h.answers ((fsNoSpace_eq_false h.sound.mark_le).mp space)] at wrote
    exact absurd (congrArg Prod.fst wrote) (by simp)
  | seeded i t a missing alloc space wrote =>
    rw [fsWriteData_ok h.answers ((fsNoSpace_eq_false h.sound.mark_le).mp space),
      Prod.mk.injEq] at wrote
    obtain ⟨-, rfl⟩ := wrote
    refine ⟨⟨h.answers.log _, hsound, h.magic, h.version⟩, ?_⟩
    exact Keeps.ofWrites h.sound.toAllocated (fun w hw => Or.inr (mem_span hw).1)
      (Ata.sector_log _ _) (update_used (fsAllocInode_some alloc).1 _)

theorem Steady.mount {fs : Fs} (h : Steady fs) :
    Mounted (fsMount fs) ∧ Keeps fs (fsMount fs) := by
  have hstart : (Steady { fs with online := true } ∧ true = true) ∧
      Keeps fs { fs with online := true } :=
    ⟨⟨⟨h.answers, h.sound, h.magic, h.version⟩, rfl⟩, fun _ _ => rfl, fun _ _ _ _ _ _ => rfl⟩
  obtain ⟨⟨hst, hon⟩, hk⟩ :=
    fsSeedExecs_induction (P := fun m => (Steady m ∧ m.online = true) ∧ Keeps fs m) hstart
      fun path data m _ ⟨⟨hm, hon⟩, hk⟩ => by
        obtain ⟨hst, hkeep⟩ := hm.seedExecFile path data
        exact ⟨⟨hst, by rw [fsSeedExecFile_online]; exact hon⟩, hk.trans hkeep⟩
  rw [fsMount_ok hst.answers]
  obtain ⟨hmount, hflush⟩ := hst.flush hon
  exact ⟨hmount, hk.trans hflush⟩

/-- **The first boot**: of a drive with no filesystem on it, or with a sound one. -/
theorem Mounted.boot {a : Ata} (hscript : a.script = [])
    (hdisk : ¬ Formatted a.sector ∨ Sound (Kernel.diskSuperblock a.sector) (Kernel.diskInodes a.sector)) :
    Mounted (fsBoot a) := by
  by_cases hf : Formatted a.sector
  · rw [fsBoot_formatted hscript hf]
    exact (Steady.mount ⟨⟨rfl, hscript⟩, hdisk.resolve_left (not_not_intro hf), hf.1, hf.2⟩).1
  · obtain ⟨b, hb, hboot⟩ := fsBoot_unformatted hscript hf
    rw [hboot]
    exact (Steady.mount ⟨hb, Sound.formatted, rfl, rfl⟩).1

/-- **A reboot** of a mounted filesystem. -/
theorem Mounted.reboot {fs : Fs} (h : Mounted fs) :
    Mounted (fsBoot fs.ata) ∧ Keeps fs (fsBoot fs.ata) := by
  have hf : Formatted fs.ata.sector := by
    rw [Formatted, h.diskSuperblock]
    exact ⟨h.magic, h.version⟩
  have hsteady : Steady (loadedFs fs.ata) := by
    refine ⟨⟨rfl, h.answers.script⟩, ?_, ?_, ?_⟩ <;> simp only [loadedFs]
    · rw [h.diskSuperblock, h.diskInodes]; exact h.sound
    · rw [h.diskSuperblock]; exact h.magic
    · rw [h.diskSuperblock]; exact h.version
  have hload : Keeps fs (loadedFs fs.ata) :=
    ⟨fun i _ => congrFun h.diskInodes i, fun _ _ _ _ _ _ => rfl⟩
  rw [fsBoot_formatted h.answers.script hf]
  exact ⟨hsteady.mount.1, hload.trans hsteady.mount.2⟩

/-! ## Stored sessions

That an inode is somebody's and its sectors hold the data is one thing, and that a reader gets to it
by its id another. The two are kept apart because a disk may have the first without the second.
-/

/-- Inode `i` is of a file that holds `data`. -/
structure Stores (fs : Fs) (i : Fin fsMaxInodes) (data : List UInt8) : Prop where
  size : (fs.inodes i).sizeBytes = bytesOf data
  count : (fs.inodes i).sectorCount = sectorsOf data
  sectors : readSpan fs.ata.sector (fs.inodes i).startLba.toNat (sectorsOf data).toNat =
    dataSectors data

/-- The store holds `data` in inode `i`, as the session `id` it was stored as. -/
structure Holds (fs : Fs) (i : Fin fsMaxInodes) (id : UInt32) (data : List UInt8)
    (info : Option TraceSessionInfo) : Prop where
  inode : ∃ s : Superblock, s.nextSessionId = id ∧
    fs.inodes i = storedInode s (bytesOf data) info
  sectors : readSpan fs.ata.sector (fs.inodes i).startLba.toNat (sectorsOf data).toNat =
    dataSectors data

/-- Asked for `id`, the store finds that inode.

    A store that `Holds` a session need not find it: `fs_find_session` takes the first inode with
    the id, and a reset between the two flushes of a write leaves a disk on which the next session
    gets an id that is already there (`crash_torn`). Over a well-formed store it always does
    (`Holds.finds`). -/
structure Finds (fs : Fs) (i : Fin fsMaxInodes) (id : UInt32) (data : List UInt8)
    (info : Option TraceSessionInfo) : Prop extends Holds fs i id data info where
  found : fsFindSession fs.inodes id = some i

/-- And gives it back: the store is up, the drive answers, and the driver reaches the sectors. -/
structure Recalls (fs : Fs) (i : Fin fsMaxInodes) (id : UInt32) (data : List UInt8)
    (info : Option TraceSessionInfo) : Prop extends Finds fs i id data info where
  online : fs.online = true
  answers : Answers fs.ata
  addressed : (fs.inodes i).startLba.toNat + (sectorsOf data).toNat ≤ 2 ^ 28

theorem Holds.stores {fs : Fs} {i : Fin fsMaxInodes} {id : UInt32} {data : List UInt8}
    {info : Option TraceSessionInfo} (h : Holds fs i id data info) : Stores fs i data := by
  obtain ⟨s, -, hi⟩ := h.inode
  exact ⟨by rw [hi]; rfl, by rw [hi]; rfl, h.sectors⟩

theorem Holds.used {fs : Fs} {i : Fin fsMaxInodes} {id : UInt32} {data : List UInt8}
    {info : Option TraceSessionInfo} (h : Holds fs i id data info) : (fs.inodes i).used ≠ 0 := by
  obtain ⟨s, -, hi⟩ := h.inode
  simp [hi, storedInode, sessionInode]

theorem Holds.isTrace {fs : Fs} {i : Fin fsMaxInodes} {id : UInt32} {data : List UInt8}
    {info : Option TraceSessionInfo} (h : Holds fs i id data info) :
    (fs.inodes i).isTrace = true ∧ (fs.inodes i).sessionId = id := by
  obtain ⟨s, hid, hi⟩ := h.inode
  simp [hi, storedInode, sessionInode, Inode.isTrace, hid]

theorem Holds.keeps {fs fs' : Fs} {i : Fin fsMaxInodes} {id : UInt32} {data : List UInt8}
    {info : Option TraceSessionInfo} (h : Holds fs i id data info) (hk : Keeps fs fs') :
    Holds fs' i id data info := by
  have hsame := hk.inode i h.used
  refine ⟨by rw [hsame]; exact h.inode, ?_⟩
  rw [hsame, ← h.sectors]
  obtain ⟨s, -, hi⟩ := h.inode
  refine readSpan_congr fun x hlo hhi => hk.sector i _ (extentOf_used h.used) x hlo ?_
  simpa [Extent.stop, hi, storedInode, sessionInode] using hhi

/-- **A session write** on a mounted filesystem: it keeps everything, and what it stored is
    held under the id it answers. -/
theorem Mounted.write {fs : Fs} (h : Mounted fs) (data : List UInt8)
    (info : Option TraceSessionInfo) :
    Mounted (fsWriteTraceSession data info fs).2 ∧
      Keeps fs (fsWriteTraceSession data info fs).2 ∧
      ∀ id, (fsWriteTraceSession data info fs).1 = some id → id = fs.superblock.nextSessionId ∧
        ∃ i, (fs.inodes i).used = 0 ∧
          Holds (fsWriteTraceSession data info fs).2 i id data info := by
  have hsound := h.sound.write data info
  rcases fsWriteTraceSession_ok info h.answers h.sound.mark_le with ⟨-, hr⟩ | ⟨i, t, -, hfit, halloc, hr⟩
  · rw [hr]
    exact ⟨h, Keeps.refl fs, fun id hid => absurd hid (by simp)⟩
  have hfree := (fsAllocInode_some halloc).1
  rw [hr] at hsound ⊢
  have hsector : (fsCommitted fs i data info).ata.sector =
      applyWrites (sessionWrites fs i data info) fs.ata.sector := Ata.sector_log ..
  -- it writes behind the last file and over the tables, never into a file
  have hfar : ∀ w ∈ sessionWrites fs i data info,
      w.1 < fsDataStartLba.toNat ∨ fs.superblock.nextFreeLba.toNat ≤ w.1 := fun w hw => by
    rcases List.mem_append.mp hw with hw | hw
    · exact Or.inr (mem_span hw).1
    · exact Or.inl (mem_tableWrites hw).2
  have hstored : (fsCommitted fs i data info).inodes i =
      storedInode fs.superblock (bytesOf data) info := by simp [fsCommitted, storedTable]
  refine ⟨⟨⟨h.answers.log _, hsound, h.magic, h.version⟩, h.online, ?_, ?_⟩,
    Keeps.ofWrites h.sound.toAllocated hfar hsector (update_used hfree _), fun id hid => ?_⟩
  · rw [hsector, sessionWrites, applyWrites_append]
    exact diskSuperblock_tableWrites ..
  · rw [hsector, sessionWrites, applyWrites_append]
    exact diskInodes_tableWrites ..
  · cases hid
    refine ⟨rfl, i, hfree, ⟨_, rfl, hstored⟩, ?_⟩
    rw [hstored, hsector, sessionWrites, applyWrites_append]
    have hbase : fsDataStartLba.toNat ≤ fs.superblock.nextFreeLba.toNat := h.sound.base
    have hdata := readSpan_span fs.ata.sector fs.superblock.nextFreeLba.toNat (dataSectors data)
    rw [length_dataSectors] at hdata
    refine Eq.trans (readSpan_congr fun x hlo _ => ?_) hdata
    refine applyWrites_frame (fun w hw => ?_) _
    have := (mem_tableWrites hw).2
    have hstart : (storedInode fs.superblock (bytesOf data) info).startLba.toNat =
        fs.superblock.nextFreeLba.toNat := rfl
    omega

/-! ## Reading a session back

The loop reads a sector at a time into the caller's buffer and cuts the last one at the size. Read
back over any drive, it gives the data or fails; there is no third case.
-/

theorem Holds.finds {fs : Fs} (hal : Allocated fs.superblock fs.inodes) {i : Fin fsMaxInodes}
    {id : UInt32} {data : List UInt8} {info : Option TraceSessionInfo}
    (h : Holds fs i id data info) : Finds fs i id data info := by
  obtain ⟨htrace, hid⟩ := h.isTrace
  refine ⟨h, fsFindSession_of_unique htrace hid fun j hj hjd =>
    hal.issued.distinct j i id.toNat ?_ ?_⟩
  · rw [← hjd]; exact sessionOf_trace hj
  · rw [← hid]; exact sessionOf_trace htrace

/-- A mounted store gives back what it holds. -/
theorem Holds.recalls {fs : Fs} (hm : Mounted fs) {i : Fin fsMaxInodes} {id : UInt32}
    {data : List UInt8} {info : Option TraceSessionInfo} (h : Holds fs i id data info) :
    Recalls fs i id data info where
  toFinds := h.finds hm.sound.toAllocated
  online := hm.online
  answers := hm.answers
  addressed := by
    have hin := hm.sound.packed.within i _ (extentOf_used h.used)
    have hmark := hm.sound.mark_le
    obtain ⟨s, -, hi⟩ := h.inode
    have hcount : (fs.inodes i).sectorCount = sectorsOf data := by rw [hi]; rfl
    simp only [Extent.stop, hcount] at hin
    omega

/-- The blocks of a session start inside it. -/
theorem sector_start_le {data : List UInt8} (hlen : data.length < 2 ^ 32 - 511) {j : Nat}
    (hj : j < (sectorsOf data).toNat) : j * sectorSize ≤ data.length := by
  rw [sectorsOf_toNat hlen] at hj
  simp only [sectorSize]
  omega

theorem le_sectors {data : List UInt8} (hlen : data.length < 2 ^ 32 - 511) :
    data.length ≤ (sectorsOf data).toNat * sectorSize := by
  rw [sectorsOf_toNat hlen]
  simp only [sectorSize]
  omega

section
variable {fs : Fs} {i : Fin fsMaxInodes} {data : List UInt8} {cap : Nat}

/-- **Reading a file back**: it comes out byte for byte, in any buffer with room. -/
theorem Stores.read (h : Stores fs i data) (honline : fs.online = true) (hanswers : Answers fs.ata)
    (haddressed : (fs.inodes i).startLba.toNat + (sectorsOf data).toNat ≤ 2 ^ 28)
    (hlen : data.length < 2 ^ 32 - 511) (buf : Buffer cap) (hcap : data.length ≤ cap) :
    ∃ buf', fsReadInode (some i) buf fs = .ok (some (bytesOf data), buf', fs) ∧
      buf'.contents data.length = data := by
  have hsize : (fs.inodes i).sizeBytes.toNat = data.length := by
    rw [h.size, bytesOf_toNat hlen]
  obtain ⟨buf', hcopy, hcontents⟩ :=
    copyBlocks_blocks hcap (le_sectors hlen)
      fun j hj => sector_start_le hlen hj
  have hread := fsReadSectors_ok (fs.inodes i) (sectorsOf data).toNat 0 buf hanswers (by omega)
    fun j hj => by rw [Nat.zero_add, hsize]; exact sector_start_le hlen hj
  rw [Nat.add_zero, hsize, h.sectors, dataSectors_eq hlen, hcopy] at hread
  refine ⟨buf', ?_, hcontents⟩
  rw [fsReadInode_some honline, h.count, show (0 : UInt32) = UInt32.ofNat 0 from rfl, hread, h.size]
  rfl

/-- **A file that was read was read as it is**, whatever the drive does. -/
theorem Stores.read_some (h : Stores fs i data) (hlen : data.length < 2 ^ 32 - 511)
    {buf buf' : Buffer cap} (hcap : data.length ≤ cap) {bytes : UInt32} {fs' : Fs}
    (hread : fsReadInode (some i) buf fs = .ok (some bytes, buf', fs')) :
    fs.online = true ∧ bytes = bytesOf data ∧ buf'.contents data.length = data ∧
      ∃ ata, fs' = { fs with ata } := by
  have hsize : (fs.inodes i).sizeBytes.toNat = data.length := by
    rw [h.size, bytesOf_toNat hlen]
  have hpos : 0 < (sectorsOf data).toNat := by rw [sectorsOf_toNat hlen]; omega
  have honline : fs.online = true := by
    by_contra hoff
    simp [fsReadInode, Bool.not_eq_true _ ▸ hoff] at hread
  rw [fsReadInode_some honline, h.count] at hread
  by_cases hready : fs.ata.ready = true
  · cases hsome : fsReadSectors (fs.inodes i) (sectorsOf data).toNat 0 buf fs.ata with
    | error e => simp [hsome, Except.map] at hread
    | ok r =>
      obtain ⟨ok, b, ata⟩ := r
      cases ok with
      | false => simp [hsome, Except.map] at hread
      | true =>
        -- it came through, so all of it lies where the driver reaches
        have haddressed := fsReadSectors_addressed (fs.inodes i) (sectorsOf data).toNat 0 buf hpos
          (fs.inodes i).startLba.toNat_lt hsome
        have hloop := fsReadSectors_eq (fs.inodes i) (sectorsOf data).toNat 0 buf hready haddressed
          fun j hj => by rw [Nat.zero_add, hsize]; exact sector_start_le hlen hj
        simp only [Nat.add_zero] at hloop
        rw [show (0 : UInt32) = UInt32.ofNat 0 from rfl, hloop] at hread
        by_cases hall : answered fs.ata (sectorsOf data).toNat 0 = (sectorsOf data).toNat
        · obtain ⟨buf'', hcopy, hcontents⟩ := copyBlocks_blocks (b := buf) hcap (le_sectors hlen)
            fun j hj => sector_start_le hlen hj
          rw [hall, hsize, h.sectors, dataSectors_eq hlen, hcopy] at hread
          simp only [Except.map, beq_self_eq_true, if_true, Except.ok.injEq, Prod.mk.injEq,
            Option.some.injEq] at hread
          obtain ⟨rfl, rfl, rfl⟩ := hread
          exact ⟨honline, h.size, hcontents, _, rfl⟩
        · have hbad : (answered fs.ata (sectorsOf data).toNat 0 == (sectorsOf data).toNat) =
              false := by simpa using hall
          rw [hbad] at hread
          cases hc : copyBlocks sectorSize (fs.inodes i).sizeBytes.toNat 0
            (readSpan fs.ata.sector (fs.inodes i).startLba.toNat
              (answered fs.ata (sectorsOf data).toNat 0)) buf with
          | error e => simp [hc, Except.map] at hread
          | ok b => simp [hc, Except.map] at hread
  · rw [fsReadSectors_notReady _ _ _ (by simpa using hready) hpos] at hread
    simp [Except.map] at hread

/-- A file that fits is read within the buffer, whatever the drive does. -/
theorem Stores.read_isOk (h : Stores fs i data) (hlen : data.length < 2 ^ 32 - 511)
    (buf : Buffer cap) (hcap : data.length ≤ cap) : (fsReadInode (some i) buf fs).isOk = true := by
  have hsize : (fs.inodes i).sizeBytes.toNat = data.length := by
    rw [h.size, bytesOf_toNat hlen]
  cases honline : fs.online with
  | false => simp [fsReadInode, honline, Except.isOk, Except.toBool]
  | true =>
    have hloop := fsReadSectors_fits (fs.inodes i) (by rw [hsize]; exact hcap)
      (sectorsOf data).toNat 0 buf fs.ata fun j hj => by
        rw [Nat.zero_add, hsize]
        exact sector_start_le hlen hj
    rw [fsReadInode_some honline, h.count]
    rw [show (0 : UInt32) = UInt32.ofNat 0 from rfl]
    cases hsome : fsReadSectors (fs.inodes i) (sectorsOf data).toNat (UInt32.ofNat 0) buf fs.ata with
    | error e =>
      rw [hsome] at hloop
      cases hloop
    | ok r => rfl

/-- A file that does not fit a buffer of less than a sector leaves it with its first sector, so it
    does when that sector is read at all. -/
theorem Stores.read_isOk_iff (h : Stores fs i data) (hlen : data.length < 2 ^ 32 - 511)
    (hsmall : cap < sectorSize) (buf : Buffer cap) :
    (fsReadInode (some i) buf fs).isOk = true ↔ data.length ≤ cap ∨ fs.online = false ∨
      (ataRead28 (fs.inodes i).startLba 1 fs.ata).1 = false := by
  refine ⟨fun hok => ?_, ?_⟩
  · by_contra hno
    simp only [not_or, Nat.not_le, Bool.not_eq_false] at hno
    obtain ⟨hlong, honline, hfirst⟩ := hno
    have hsize : (fs.inodes i).sizeBytes.toNat = data.length := by
      rw [h.size, bytesOf_toNat hlen]
    obtain ⟨todo, htodo⟩ : ∃ todo, (sectorsOf data).toNat = todo + 1 := by
      refine Nat.exists_eq_succ_of_ne_zero ?_
      rw [sectorsOf_toNat hlen]
      omega
    obtain ⟨hoff, hchunk⟩ := @readChunk_toNat (fs.inodes i).sizeBytes 0 (by omega)
    obtain ⟨x, rest, ata, hread⟩ := ataRead28_one hfirst
    have hover : (x.bytes.take (chunkOf sectorSize data.length 0)).length =
        chunkOf sectorSize data.length 0 := length_take_chunk x
    have hmost : cap < chunkOf sectorSize data.length 0 := by
      rw [chunkOf]
      omega
    have hcopy := @Buffer.copyInto_overrun cap buf 0 (x.bytes.take (chunkOf sectorSize data.length 0))
      (fun h0 => by rw [h0, List.length_nil] at hover; omega) (by omega)
    rw [fsReadInode_some honline, h.count, htodo] at hok
    rw [hsize] at hchunk
    simp only [fsReadSectors, UInt32.add_zero, hread] at hok
    rw [show (0 : UInt32) = UInt32.ofNat 0 from rfl, hoff, hchunk, Nat.zero_mul, hcopy] at hok
    cases hok
  · rintro (hcap | hoff | hfails)
    · exact h.read_isOk hlen buf hcap
    · simp [fsReadInode, hoff, Except.isOk, Except.toBool]
    · cases honline : fs.online with
      | false => simp [fsReadInode, honline, Except.isOk, Except.toBool]
      | true =>
        rw [fsReadInode_some honline]
        cases (fs.inodes i).sectorCount.toNat with
        | zero => rfl
        | succ todo =>
          simp only [fsReadSectors, UInt32.add_zero]
          split
          · rename_i hread
            rw [hread] at hfails
            cases hfails
          · rfl

/-- So whatever such a buffer was filled with fitted. -/
theorem Stores.fits (h : Stores fs i data) (hlen : data.length < 2 ^ 32 - 511)
    (hsmall : cap < sectorSize) {buf buf' : Buffer cap} {bytes : UInt32} {fs' : Fs}
    (hread : fsReadInode (some i) buf fs = .ok (some bytes, buf', fs')) : data.length ≤ cap := by
  refine ((h.read_isOk_iff hlen hsmall buf).mp (by rw [hread]; rfl)).resolve_right ?_
  have hpos : 0 < (sectorsOf data).toNat := by rw [sectorsOf_toNat hlen]; omega
  cases honline : fs.online with
  | false => simp [fsReadInode, honline] at hread
  | true =>
    rw [fsReadInode_some honline, h.count] at hread
    obtain ⟨todo, htodo⟩ := Nat.exists_eq_succ_of_ne_zero (Nat.ne_of_gt hpos)
    rintro (hoff | hfails)
    · cases hoff
    · simp only [htodo, fsReadSectors, UInt32.add_zero] at hread
      split at hread
      · rename_i hfirst
        rw [hfirst] at hfails
        cases hfails
      · simp [Except.map] at hread

end

/-- **Reading a session back.** -/
theorem Recalls.read {fs : Fs} {i : Fin fsMaxInodes} {id : UInt32} {data : List UInt8}
    {info : Option TraceSessionInfo} (h : Recalls fs i id data info)
    (hlen : data.length < 2 ^ 32 - 511) {cap : Nat} (buf : Buffer cap) (hcap : data.length ≤ cap) :
    ∃ buf', fsReadTraceSession id buf fs = .ok (some (bytesOf data), buf', fs) ∧
      buf'.contents data.length = data := by
  rw [fsReadTraceSession, h.found]
  exact h.stores.read h.online h.answers h.addressed hlen buf hcap

theorem toUInt32_div_toUInt64 (x y : UInt32) : (x.toUInt64 / y.toUInt64).toUInt32 = x / y := by
  rw [← UInt32.toNat_inj, UInt64.toNat_toUInt32, UInt64.toNat_div, UInt32.toNat_div,
    UInt32.toNat_toUInt64, UInt32.toNat_toUInt64]
  exact Nat.mod_eq_of_lt (Nat.lt_of_le_of_lt (Nat.div_le_self ..) x.toNat_lt)

/-- The metadata a session is given back with. -/
def storedInfo (id : UInt32) (data : List UInt8) (info : Option TraceSessionInfo) :
    TraceSessionInfo :=
  match info with
  | some info => { info with sessionId := id, sizeBytes := bytesOf data }
  | none =>
    { TraceSessionInfo.zero with
      sessionId := id, sizeBytes := bytesOf data
      eventCount := bytesOf data / UInt32.ofNat traceEventSize }

/-- **And so does its metadata.** -/
theorem Finds.info {fs : Fs} (honline : fs.online = true) {i : Fin fsMaxInodes} {id : UInt32}
    {data : List UInt8} {info : Option TraceSessionInfo} (h : Finds fs i id data info) :
    fsGetTraceSessionInfo id fs = some (storedInfo id data info) := by
  obtain ⟨s, hid, hi⟩ := h.inode
  simp only [fsGetTraceSessionInfo, honline, h.found, hi]
  cases info with
  | some info => simp [storedInfo, storedInode, sessionInode, hid]
  | none => simp [storedInfo, storedInode, sessionInode, hid, TraceSessionInfo.zero,
      toUInt32_div_toUInt64]

/-! ## Runs -/

/-- What happens to a mounted store: a session is written, or the machine reboots. -/
inductive FsOp
  | write (c : WriteCall)
  | reboot

def FsOp.run : FsOp → Fs → Fs
  | .write c, fs => (fsWriteTraceSession c.data c.info fs).2
  | .reboot, fs => fsBoot fs.ata

def fsRun (ops : List FsOp) (fs : Fs) : Fs := ops.foldl (fun fs op => op.run fs) fs

theorem Mounted.op {fs : Fs} (h : Mounted fs) (op : FsOp) :
    Mounted (op.run fs) ∧ Keeps fs (op.run fs) := by
  cases op with
  | write c => exact ⟨(h.write c.data c.info).1, (h.write c.data c.info).2.1⟩
  | reboot => exact h.reboot

theorem Mounted.run : ∀ (ops : List FsOp) {fs : Fs}, Mounted fs →
    Mounted (fsRun ops fs) ∧ Keeps fs (fsRun ops fs)
  | [], fs, h => ⟨h, Keeps.refl fs⟩
  | op :: ops, fs, h => by
    obtain ⟨hop, hkeep⟩ := h.op op
    obtain ⟨hrun, hkeeps⟩ := Mounted.run ops hop
    exact ⟨hrun, hkeep.trans hkeeps⟩

/-- A mounted store gives back what it holds after any writes and reboots. -/
theorem Holds.later {fs : Fs} (hm : Mounted fs) {i : Fin fsMaxInodes} {id : UInt32}
    {data : List UInt8} {info : Option TraceSessionInfo} (h : Holds fs i id data info)
    (ops : List FsOp) : Recalls (fsRun ops fs) i id data info := by
  obtain ⟨hrun, hkeeps⟩ := Mounted.run ops hm
  exact (h.keeps hkeeps).recalls hrun

/-- **Durability**: whatever was written and however often the machine was rebooted before
    and since, a session that was stored reads back byte for byte, with its metadata, under
    an id no later session is given.

    `hscript` is a drive that answers every command. `hdisk` is the disk of the first boot: either
    it carries nothing of this filesystem, and is formatted, or its tables are sound, which every
    run from such a disk keeps. `hlen` keeps the size from going round a `u32` when it is rounded up
    to sectors. `hstored` is the write that returned an id. The buffer of the read is of any size
    that has room for the data. -/
theorem trace_store_durable (a : Ata) (hscript : a.script = [])
    (hdisk : ¬ Formatted a.sector ∨ Sound (diskSuperblock a.sector) (diskInodes a.sector))
    (before after : List FsOp) (data : List UInt8) (hlen : data.length < 2 ^ 32 - 511)
    (info : Option TraceSessionInfo) (id : UInt32) (fs : Fs)
    (hstored : fsWriteTraceSession data info (fsRun before (fsBoot a)) = (some id, fs)) :
    (∀ (cap : Nat) (buf : Buffer cap), data.length ≤ cap → ∃ buf',
      fsReadTraceSession id buf (fsRun after fs) =
          .ok (some (UInt32.ofNat data.length), buf', fsRun after fs) ∧
        buf'.contents data.length = data) ∧
      fsGetTraceSessionInfo id (fsRun after fs) = some (storedInfo id data info) ∧
      ∀ (c : WriteCall) (id' : UInt32) (fs' : Fs),
        fsWriteTraceSession c.data c.info (fsRun after fs) = (some id', fs') → id' ≠ id := by
  obtain ⟨hwrite, -, hheld⟩ :=
    (Mounted.run before (Mounted.boot hscript hdisk)).1.write data info
  simp only [hstored] at hwrite hheld
  obtain ⟨-, i, -, hholds⟩ := hheld id rfl
  have hrun := (Mounted.run after hwrite).1
  have hheld' := hholds.later hwrite after
  refine ⟨fun cap buf hcap => ?_, hheld'.info hrun.online, fun c id' fs' hlater hsame => ?_⟩
  · obtain ⟨buf', hread, hcontents⟩ := hheld'.read hlen buf hcap
    exact ⟨buf', hread, hcontents⟩
  · -- a later id is the counter's, and every id in use is below the counter
    have hnext := ((hrun.write c.data c.info).2.2 id' (congrArg Prod.fst hlater)).1
    obtain ⟨htrace, hid⟩ := hheld'.isTrace
    have hbelow := hrun.sound.issued.below i _ (sessionOf_trace htrace)
    rw [hid, ← hsame, hnext] at hbelow
    omega

/-- A drive with nothing on it. -/
def blankDrive : Ata := driveWith Superblock.zero fun _ => Inode.zero

theorem blankDrive_not_formatted : ¬ Formatted blankDrive.sector := by
  rw [blankDrive, Formatted, driveWith_superblock]
  decide

/-- A blank drive after one session and a reboot. -/
def usedStore : Fs := fsRun [.write ⟨[9], none⟩, .reboot] (fsBoot blankDrive)

/-- The next session there is still there after another reboot and another session. -/
theorem trace_store_durable_usedStore :
    fsGetTraceSessionInfo 2 (fsRun [.reboot, .write ⟨[], none⟩]
      (fsWriteTraceSession [1, 2, 3] none usedStore).2) = some (storedInfo 2 [1, 2, 3] none) := by
  have hid : (fsWriteTraceSession [1, 2, 3] none usedStore).1 = some 2 := by decide +kernel
  have hstored : fsWriteTraceSession [1, 2, 3] none usedStore =
      (some 2, (fsWriteTraceSession [1, 2, 3] none usedStore).2) := by rw [← hid]
  exact (trace_store_durable blankDrive rfl (Or.inl blankDrive_not_formatted)
    [.write ⟨[9], none⟩, .reboot] [.reboot, .write ⟨[], none⟩] [1, 2, 3] (by decide) none 2 _
    hstored).2.1

/-- An empty filesystem whose mark is four sectors before the tables: just room for the four
    files a boot seeds. -/
def earlyMarkDrive : Ata :=
  driveWith { formattedSuperblock with nextFreeLba := 2044 } fun _ => Inode.zero

/-- From such a disk a session is not durable: its sector is the superblock's, and the flush that
    completes the call writes over it. What is read back is the magic number. -/
theorem trace_store_lost_earlyMark :
    earlyMarkDrive.script = [] ∧ (fsWriteTraceSession [1, 2, 3] none (fsBoot earlyMarkDrive)).1 =
      some 1 ∧
    (fsReadTraceSession 1 (⟨fun _ => 0⟩ : Buffer 3)
        (fsWriteTraceSession [1, 2, 3] none (fsBoot earlyMarkDrive)).2).map
          (fun r => (r.1, r.2.1.contents 3)) = .ok (some 3, (putU32 fsMagic).take 3) ∧
      (putU32 fsMagic).take 3 ≠ [1, 2, 3] :=
  ⟨rfl, by decide +kernel, by decide +kernel, by decide⟩

end Proof
end BumbelBee
