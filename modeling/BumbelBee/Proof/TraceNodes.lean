import BumbelBee.Lib.Chunks
import BumbelBee.Proof.Readers
import BumbelBee.Proof.Texts

/-!
# The trace store under `/trace`

A session's node gives back the session, whatever the chunks it is read in, as long as the
session fits the VFS's scratch buffer; a longer one cannot be read at all. The index lists the
first sixteen sessions. Between them they are the store as `fs_read_trace_session` knows it,
but for these two caps.

The node and the shell's own commands read the same session through different code: one in chunks,
through a scratch buffer that is filled anew each time, the other in one go. They agree up to the
size of that buffer and not beyond it. A session that is too long is refused, not cut, and that is
part of the result.
-/

namespace BumbelBee
namespace Proof

open Lib Kernel

/-! ## The path of a session

A path is parsed by two functions, one of which looks at the first and last characters and the other
at the digits. For the path the index would print of a session they agree, and the number comes
back.
-/

def sessionPath (id : UInt32) : List UInt8 :=
  cstr "/trace/session-" ++ (decimal id.toNat ++ cstr ".bin")

theorem parseTraceSessionId_path {id : UInt32} (h : id ≠ 0) :
    parseTraceSessionId (sessionPath id) = some id := by
  have hfront : (cstr "/trace/session-").length = 15 := by decide
  have hdot : ∀ c ∈ (cstr ".bin").head?, ¬ (0x30 ≤ c ∧ c ≤ 0x39) := by
    intro c hc
    rw [show (cstr ".bin").head? = some 0x2e by decide, Option.mem_some_iff] at hc
    rw [← hc]
    decide
  have hparse := parseDigits_append (decimal id.toNat) (cstr ".bin") (fun c hc => mem_decimal hc)
    hdot 0
  rw [readDigits_decimal, UInt32.ofNat_toNat] at hparse
  unfold parseTraceSessionId sessionPath
  rw [List.take_append_of_le_length (by rw [hfront]), List.take_of_length_le (by rw [hfront]),
    if_neg (by simp), ← hfront, List.drop_left]
  simp only [show (0 : UInt32) = UInt32.ofNat 0 from rfl, hparse]
  exact if_neg h

/-- A path that starts like a session's is classified by how it ends. -/
theorem pathKind_session {path : List UInt8} (h : path.take 15 = cstr "/trace/session-") :
    pathKind path = if cstr ".bin" <:+ path then some .traceSession
      else if cstr ".meta" <:+ path then some .traceMeta else none := by
  have hne : ∀ s : List UInt8, s.take 15 ≠ cstr "/trace/session-" → path ≠ s := by
    rintro s hs rfl
    exact hs h
  have hfive : path.take 5 = cstr "/trac" := by
    have hfront := congrArg (List.take 5) h
    rw [List.take_take] at hfront
    exact hfront.trans (by decide)
  have hlen : path.length > 11 := by
    have hfront := congrArg List.length h
    rw [List.length_take, show (cstr "/trace/session-").length = 15 by decide] at hfront
    omega
  unfold pathKind
  rw [if_neg (hne _ (by decide)), if_neg (not_or.mpr ⟨by rw [hfive]; decide, hne _ (by decide)⟩),
    if_neg (hne _ (by decide)), if_neg (hne _ (by decide)), if_neg (hne _ (by decide)),
    if_neg (not_or.mpr ⟨hne _ (by decide), not_or.mpr ⟨hne _ (by decide), hne _ (by decide)⟩⟩),
    if_neg (not_or.mpr ⟨hne _ (by decide), not_or.mpr ⟨hne _ (by decide), hne _ (by decide)⟩⟩),
    if_neg (by rw [hfive]; decide), if_pos ⟨hlen, h⟩]
  simp only [List.suffix_iff_eq_drop, eq_comm (b := path.drop _),
    show (cstr ".bin").length = 4 by decide, show (cstr ".meta").length = 5 by decide]

theorem pathKind_sessionPath (id : UInt32) : pathKind (sessionPath id) = some .traceSession := by
  have hfront : (sessionPath id).take 15 = cstr "/trace/session-" := List.take_left' (by decide)
  have hbin : cstr ".bin" <:+ sessionPath id := by
    rw [sessionPath, ← List.append_assoc]
    exact List.suffix_append _ _
  rw [pathKind_session hfront, if_pos hbin]

/-! ## The bytes of a session

The sectors of a file are read afresh for each chunk, through a drive that may fail at any of them;
what is read is then a slice of what is on the disk, or nothing. That the bytes do not change in
between is for those to say who write.
-/

/-- What the drive holds of a file: its sectors, cut to its size. -/
def fileData (fs : Fs) (i : Fin fsMaxInodes) : List UInt8 :=
  ((readSpan fs.ata.sector (fs.inodes i).startLba.toNat (fs.inodes i).sectorCount.toNat).flatMap
    Block.bytes).take (fs.inodes i).sizeBytes.toNat

/-- A drive behind some reads. -/
def Fs.afterReads (fs : Fs) (n : Nat) : Fs := { fs with ata := fs.ata.skip n }

@[simp] theorem fileData_afterReads (fs : Fs) (n : Nat) (i : Fin fsMaxInodes) :
    fileData (Fs.afterReads fs n) i = fileData fs i := rfl

theorem Answers.afterReads {fs : Fs} (h : Answers fs.ata) (n : Nat) :
    Answers (Fs.afterReads fs n).ata := by
  refine ⟨h.ready, ?_⟩
  simp [Fs.afterReads, Ata.skip, h.script]

/-- A file whose record is in order: where it lies, and how long it is. -/
structure Placed (fs : Fs) (i : Fin fsMaxInodes) : Prop where
  online : fs.online = true
  within : (fs.inodes i).startLba.toNat + (fs.inodes i).sectorCount.toNat ≤ 2 ^ 28
  sized : (fs.inodes i).sectorCount.toNat = max 1 (((fs.inodes i).sizeBytes.toNat + 511) / 512)

theorem Stocked.placed {fs : Fs} (h : Stocked fs.superblock fs.inodes) (honline : fs.online = true)
    {i : Fin fsMaxInodes} (hused : (fs.inodes i).used ≠ 0) : Placed fs i := by
  have hin := h.packed.within i _ (extentOf_used hused)
  have hmark := h.toSound.mark_le
  simp only [Extent.stop] at hin
  exact ⟨honline, by omega, h.sized i hused⟩

theorem length_fileData {fs : Fs} {i : Fin fsMaxInodes} (h : Placed fs i) :
    (fileData fs i).length = (fs.inodes i).sizeBytes.toNat := by
  have hsectors : ((readSpan fs.ata.sector (fs.inodes i).startLba.toNat
      (fs.inodes i).sectorCount.toNat).flatMap Block.bytes).length =
        (fs.inodes i).sectorCount.toNat * 512 := by
    simp [List.length_flatMap, sectorSize]
  have hsized := h.sized
  rw [fileData, List.length_take, hsectors]
  omega

/-- **Reading a file into a buffer it fits in**: all of it, or -1 when the drive fails. What
    the buffer held has no part in it. -/
theorem fsReadInode_data {fs : Fs} {i : Fin fsMaxInodes} (h : Placed fs i) {cap : Nat}
    (hcap : (fs.inodes i).sizeBytes.toNat ≤ cap) :
    ∃ (n : Nat) (ok : Bool), (Answers fs.ata → ok = true) ∧ ∀ buf : Buffer cap, ∃ buf',
      fsReadInode (some i) buf fs = .ok
        (if ok then some (fs.inodes i).sizeBytes else none, buf', Fs.afterReads fs n) ∧
      (ok = true → buf'.contents (fs.inodes i).sizeBytes.toNat = fileData fs i) := by
  have hsized := h.sized
  have hwithin := h.within
  -- a drive that is not ready is asked nothing; one that is may still fault on the way
  cases hready : fs.ata.ready with
  | false =>
    refine ⟨0, false, fun ha => ?_, fun buf => ⟨buf, ?_, fun hok => by cases hok⟩⟩
    · rw [ha.ready] at hready
      cases hready
    · rw [fsReadInode_some h.online, fsReadSectors_notReady _ _ _ hready (by omega)]
      simp [Except.map, Fs.afterReads]
  | true =>
    have hstart : ∀ j < (fs.inodes i).sectorCount.toNat,
        (0 + j) * sectorSize ≤ (fs.inodes i).sizeBytes.toNat := fun j hj => by
      simp only [sectorSize]
      omega
    have hans := answered_le fs.ata (fs.inodes i).sectorCount.toNat 0
    refine ⟨min (fs.inodes i).sectorCount.toNat (answered fs.ata (fs.inodes i).sectorCount.toNat 0 + 1),
      answered fs.ata (fs.inodes i).sectorCount.toNat 0 == (fs.inodes i).sectorCount.toNat,
      fun ha => ?_, fun buf => ?_⟩
    · exact beq_iff_eq.mpr (Nat.le_antisymm hans ((le_answered _ _ _ _).mpr
        ⟨Nat.le_refl _, fun j _ => by rw [Ata.outcome, ha.script]; rfl⟩))
    · obtain ⟨buf', hcopy, hcontents⟩ := copyBlocks_ok (n := sectorSize)
        (readSpan fs.ata.sector (fs.inodes i).startLba.toNat
          (answered fs.ata (fs.inodes i).sectorCount.toNat 0)) 0 buf hcap (by simp) fun j hj =>
            hstart j (by rw [length_readSpan] at hj; omega)
      have hloop := fsReadSectors_eq (fs.inodes i) _ 0 buf hready (by omega) hstart
      simp only [Nat.add_zero] at hloop
      rw [hcopy] at hloop
      rw [fsReadInode_some h.online, show (0 : UInt32) = UInt32.ofNat 0 from rfl, hloop]
      refine ⟨buf', rfl, fun hok => ?_⟩
      rw [length_readSpan, Nat.zero_add, beq_iff_eq.mp hok,
        Nat.min_eq_left (by simp only [sectorSize]; omega), Nat.zero_mul, Nat.sub_zero] at hcontents
      rw [hcontents]
      simp [Buffer.contents, fileData]

theorem Placed.afterReads {fs : Fs} {i : Fin fsMaxInodes} (h : Placed fs i) (n : Nat) :
    Placed (Fs.afterReads fs n) i := ⟨h.online, h.within, h.sized⟩

/-- A session that its id leads to. -/
structure Shelved (fs : Fs) (i : Fin fsMaxInodes) : Prop extends Placed fs i where
  found : fsFindSession fs.inodes (fs.inodes i).sessionId = some i
  numbered : (fs.inodes i).sessionId ≠ 0

theorem Shelved.afterReads {fs : Fs} {i : Fin fsMaxInodes} (h : Shelved fs i) (n : Nat) :
    Shelved (Fs.afterReads fs n) i := ⟨h.toPlaced.afterReads n, h.found, h.numbered⟩

/-- The metadata `read_trace_file` looks at. -/
theorem Shelved.info {fs : Fs} {i : Fin fsMaxInodes} (h : Shelved fs i) :
    ∃ info, fsGetTraceSessionInfo (fs.inodes i).sessionId fs = some info ∧
      info.sizeBytes = (fs.inodes i).sizeBytes := by
  simp only [fsGetTraceSessionInfo, h.online, h.found, Option.some.injEq, exists_eq_left']

/-- A longer session is not read at all. -/
theorem readTraceFile_long {fs : Fs} {i : Fin fsMaxInodes} (h : Shelved fs i)
    (hlong : vfsScratchMax < (fs.inodes i).sizeBytes.toNat) (pos : UInt32) (bytes : UInt64)
    (scratch : Nat → UInt8) :
    readTraceFile (sessionPath (fs.inodes i).sessionId) pos bytes false scratch fs =
      .ok (none, pos, fs) := by
  obtain ⟨info, hinfo, hsize⟩ := h.info
  have hmax : (UInt32.ofNat vfsScratchMax).toNat = vfsScratchMax := by decide
  have hguard : info.sizeBytes > UInt32.ofNat vfsScratchMax := by
    rw [hsize, gt_iff_lt, UInt32.lt_iff_toNat_lt, hmax]
    exact hlong
  unfold readTraceFile
  simp only [parseTraceSessionId_path h.numbered, hinfo, Bool.false_eq_true, if_false,
    if_pos hguard]

/-! ## Reads one after the other -/

/-- Reads through one descriptor, in chunks of the given sizes. -/
def vfsReads (fd : Int) : List (UInt64 × ReadFrame) → Vfs →
    Except Overrun (List (Option (List UInt8)) × Vfs)
  | [], v => .ok ([], v)
  | (bytes, f) :: calls, v => do
    let (out, v) ← vfsRead fd bytes f v
    let (outs, v) ← vfsReads fd calls v
    .ok (out :: outs, v)

theorem findFd_fin (i : Fin vfsMaxFds) (v : Vfs) :
    v.findFd (i.val : Int) = (v.fdTable i).map fun d => (i, d) := by
  have hin : (0 : Int) ≤ (i.val : Int) ∧ (i.val : Int).toNat < vfsMaxFds := by
    rw [Int.toNat_natCast]
    exact ⟨Int.natCast_nonneg _, i.isLt⟩
  unfold Vfs.findFd
  rw [dif_pos hin]
  simp only [Int.toNat_natCast]

theorem findFd_some {fd : Int} {v : Vfs} {i : Fin vfsMaxFds} {d : VfsFd}
    (h : v.findFd fd = some (i, d)) : fd = (i.val : Int) ∧ v.fdTable i = some d := by
  unfold Vfs.findFd at h
  split at h
  · rename_i hin
    obtain ⟨d', hd', heq⟩ := Option.map_eq_some_iff.mp h
    cases heq
    exact ⟨(Int.toNat_of_nonneg hin.1).symm, hd'⟩
  · cases h

/-- What an open does: nothing, or take a slot that is free. -/
theorem vfsOpen_cases (path : List UInt8) (flags : UInt32) (v : Vfs) :
    vfsOpen path flags v = (none, v) ∨ ∃ kind i, pathKind path = some kind ∧ v.fdTable i = none ∧
      vfsOpen path flags v = (some i,
        { v with fdTable := Function.update v.fdTable i (some ⟨flags, 0, kind, path⟩) }) := by
  unfold vfsOpen
  cases hkind : pathKind path with
  | none => exact Or.inl rfl
  | some kind =>
    simp only
    cases hfind : (List.finRange vfsMaxFds).find? fun i => (v.fdTable i).isNone with
    | none => exact Or.inl rfl
    | some i =>
      have hfree : (v.fdTable i).isNone = true := by simpa using List.find?_some hfind
      by_cases hlong : path.length ≥ vfsPathMax
      · exact Or.inl (if_pos hlong)
      · exact Or.inr ⟨kind, i, rfl, Option.isNone_iff_eq_none.mp hfree, if_neg hlong⟩

/-- What a close does: nothing, or free a slot. -/
theorem vfsClose_cases (fd : Int) (v : Vfs) : vfsClose fd v = (false, v) ∨
    ∃ i d, fd = (i.val : Int) ∧ v.fdTable i = some d ∧
      vfsClose fd v = (true, { v with fdTable := Function.update v.fdTable i none }) := by
  unfold vfsClose
  cases hfind : v.findFd fd with
  | none => exact Or.inl rfl
  | some found =>
    obtain ⟨i, d⟩ := found
    obtain ⟨hfd, hd⟩ := findFd_some hfind
    exact Or.inr ⟨i, d, hfd, hd, rfl⟩

/-- What a read does: nothing, or read from the node of a descriptor and move its position. -/
theorem vfsRead_inv {fd : Int} {bytes : UInt64} {f : ReadFrame} {v v' : Vfs}
    {out : Option (List UInt8)} (h : vfsRead fd bytes f v = .ok (out, v')) :
    (out = none ∧ v' = v) ∨ ∃ i d pos k, fd = (i.val : Int) ∧ v.fdTable i = some d ∧
      d.flags ≠ vfsOWronly ∧ readFromNode d bytes f v.nodes = .ok (out, pos, k) ∧
      v' = ⟨Function.update v.fdTable i (some { d with pos }), k⟩ := by
  unfold vfsRead at h
  cases hfind : v.findFd fd with
  | none =>
    rw [hfind] at h
    cases h
    exact Or.inl ⟨rfl, rfl⟩
  | some found =>
    obtain ⟨i, d⟩ := found
    obtain ⟨hfd, hd⟩ := findFd_some hfind
    rw [hfind] at h
    simp only at h
    split at h
    · cases h
      exact Or.inl ⟨rfl, rfl⟩
    · rename_i hflags
      cases hread : readFromNode d bytes f v.nodes with
      | error e =>
        rw [hread] at h
        cases h
      | ok r =>
        obtain ⟨out', pos, k⟩ := r
        rw [hread] at h
        cases h
        exact Or.inr ⟨i, d, pos, k, hfd, hd, hflags, hread, rfl⟩

/-- A fresh descriptor. -/
theorem vfsOpen_spec {path : List UInt8} {flags : UInt32} {v v' : Vfs} {i : Fin vfsMaxFds}
    (h : vfsOpen path flags v = (some i, v')) : ∃ kind, pathKind path = some kind ∧
      v'.fdTable i = some ⟨flags, 0, kind, path⟩ ∧ v'.nodes = v.nodes := by
  rcases vfsOpen_cases path flags v with hnone | ⟨kind, j, hkind, -, hopen⟩
  · rw [hnone] at h
    cases h
  · rw [hopen] at h
    cases h
    exact ⟨kind, hkind, Function.update_self .., rfl⟩

/-- An open that has a descriptor left. -/
theorem vfsOpen_isSome {path : List UInt8} {kind : VfsNodeType} (hkind : pathKind path = some kind)
    (hlen : path.length < vfsPathMax) (flags : UInt32) {v : Vfs}
    (hfree : ∃ i, v.fdTable i = none) : (vfsOpen path flags v).1.isSome = true := by
  have hsome : ((List.finRange vfsMaxFds).find? fun i => (v.fdTable i).isNone).isSome = true := by
    obtain ⟨i, hi⟩ := hfree
    rw [List.find?_isSome]
    exact ⟨i, List.mem_finRange i, by rw [hi]; rfl⟩
  obtain ⟨i, hi⟩ := Option.isSome_iff_exists.mp hsome
  unfold vfsOpen
  simp only [hkind, hi]
  rw [if_neg (by omega)]
  rfl

/-- **Reads one after the other** give the data chunk by chunk, when each gives what is next
    of it. `known` is what the reads leave as it was. -/
theorem vfsReads_delivers {flags : UInt32} {kind : VfsNodeType} {path data : List UInt8}
    {faults : Prop} {known : Nodes → Prop} (hflags : flags ≠ vfsOWronly)
    (hread : ∀ k, known k → ∀ pos : UInt32, pos.toNat ≤ data.length → ∀ bytes f, ∃ out pos' k',
      readFromNode ⟨flags, pos, kind, path⟩ bytes f k = .ok (out, pos', k') ∧ known k' ∧
        ReadStep data faults pos bytes out pos')
    (i : Fin vfsMaxFds) (calls : List (UInt64 × ReadFrame)) :
    ∀ (v : Vfs) (pos : UInt32), v.fdTable i = some ⟨flags, pos, kind, path⟩ →
      pos.toNat ≤ data.length → known v.nodes →
      ∃ outs v', vfsReads i calls v = .ok (outs, v') ∧
        Delivers data pos.toNat (calls.map fun c => c.1.toNat) outs ∧ (none ∈ outs → faults) := by
  induction calls with
  | nil => exact fun v pos _ _ _ => ⟨[], v, rfl, .done _, fun h => absurd h List.not_mem_nil⟩
  | cons call calls ih =>
    intro v pos hfd hpos hknown
    obtain ⟨bytes, f⟩ := call
    -- the first read moves the position, and the others start from there
    obtain ⟨out, pos', k', hnode, hknown', hstep⟩ := hread v.nodes hknown pos hpos bytes f
    have hpos' : pos'.toNat ≤ data.length := by
      rcases hstep with ⟨-, -, rfl⟩ | ⟨-, hnext⟩
      · exact hpos
      · omega
    obtain ⟨outs, v'', hrest, hdelivers, hnone⟩ := ih
      ⟨Function.update v.fdTable i (some ⟨flags, pos', kind, path⟩), k'⟩ pos' (by simp) hpos' hknown'
    refine ⟨out :: outs, v'', ?_, ?_, ?_⟩
    · have hfind : v.findFd (i.val : Int) = some (i, ⟨flags, pos, kind, path⟩) := by
        rw [findFd_fin, hfd]
        rfl
      simp only [vfsReads, vfsRead, hfind, if_neg hflags, hnode, bind, Except.bind, hrest]
    · rcases hstep with ⟨-, rfl, rfl⟩ | ⟨rfl, hnext⟩
      · exact .failed hdelivers
      · rw [hnext] at hdelivers
        exact .read hdelivers
    · intro hmem
      rcases List.mem_cons.mp hmem with hnow | hlater
      · rcases hstep with ⟨hfaults, -, -⟩ | ⟨rfl, -⟩
        · exact hfaults
        · cases hnow
      · exact hnone hlater

/-! ## Session ids are not 0 -/

/-- Neither a stored session nor the next one has id 0, which stands for no id in a path. -/
structure IdsNonzero (s : Superblock) (t : InodeTable) : Prop where
  next : s.nextSessionId ≠ 0
  ids : ∀ i, (t i).isTrace = true → (t i).sessionId ≠ 0

theorem IdsNonzero.update {s : Superblock} {t : InodeTable} (h : IdsNonzero s t)
    (i : Fin fsMaxInodes) {n : Inode} (hn : n.isTrace = true → n.sessionId ≠ 0) :
    IdsNonzero s (Function.update t i n) := by
  refine ⟨h.next, fun j hj => ?_⟩
  by_cases hji : j = i
  · subst hji
    rw [Function.update_self] at hj ⊢
    exact hn hj
  · rw [Function.update_of_ne hji] at hj ⊢
    exact h.ids j hj

theorem IdsNonzero.seedExecFile {fs : Fs} (h : IdsNonzero fs.superblock fs.inodes)
    (path data : List UInt8) :
    IdsNonzero (fsSeedExecFile path data fs).2.superblock (fsSeedExecFile path data fs).2.inodes := by
  have hres := fsSeedExecFile_result path data fs
  generalize fsSeedExecFile path data fs = r at hres ⊢
  cases hres with
  | found i there => exact h
  | noInode missing full => exact h
  | noSpace i t missing alloc space => exact h.update i fun hn => absurd hn (by simp [Inode.isTrace])
  | dataFault i t a missing alloc space wrote =>
    exact h.update i fun hn => absurd hn (by simp [Inode.isTrace])
  | seeded i t a missing alloc space wrote =>
    have hkept := h.update i (n := seededInode path fs.superblock (bytesOf data)) fun hn =>
      absurd hn (by simp [Inode.isTrace, seededInode, seedInode, inodeTypeExec, inodeTypeTrace])
    exact ⟨hkept.next, hkept.ids⟩

theorem IdsNonzero.boot {a : Ata}
    (hdisk : ¬ Formatted a.sector ∨ IdsNonzero (diskSuperblock a.sector) (diskInodes a.sector))
    (h : (fsBoot a).online = true) : IdsNonzero (fsBoot a).superblock (fsBoot a).inodes := by
  obtain ⟨m, hm, -, hfrom⟩ := fsInit_online h
  have hstart : IdsNonzero m.superblock m.inodes := by
    rcases hfrom with ⟨hf, hsup, hino⟩ | ⟨hsup, hino⟩
    · rw [hsup, hino]
      exact hdisk.resolve_left (not_not_intro hf)
    · rw [hsup, hino]
      exact ⟨by decide, fun i hi => absurd hi (by simp [Inode.isTrace, Inode.zero])⟩
  rw [fsBoot, hm, fsMount_superblock, fsMount_inodes]
  exact fsSeedExecs_induction (P := fun m => IdsNonzero m.superblock m.inodes) hstart
    fun path data _ _ hm => IdsNonzero.seedExecFile hm path data

/-- The counter cannot come round to 0: the inodes run out before. -/
theorem IdsNonzero.write {fs : Fs} (h : IdsNonzero fs.superblock fs.inodes)
    (hsound : Sound fs.superblock fs.inodes) (data : List UInt8) (info : Option TraceSessionInfo) :
    IdsNonzero (fsWriteTraceSession data info fs).2.superblock
      (fsWriteTraceSession data info fs).2.inodes := by
  have hwritten := hsound.write data info
  have hres := fsWriteTraceSession_result data info fs
  generalize fsWriteTraceSession data info fs = r at hres hwritten ⊢
  cases hres with
  | refused why => exact h
  | dataFault i t a online space alloc wrote =>
    exact h.update i fun hn => absurd hn (by simp [Inode.isTrace, Inode.zero])
  | stored i t a online space alloc wrote =>
    rw [fsFlushTables_memory]
    have hid : (storedInode fs.superblock (bytesOf data) info).sessionId ≠ 0 := h.next
    refine ⟨fun hzero => ?_, (h.update i fun _ => hid).ids⟩
    have hfree := (fsAllocInode_some alloc).1
    have hroom := hsound.room
    have hleft := freeInodes_take hfree (storedInode_taken fs.superblock (bytesOf data) info).used
    have hnext : (fs.superblock.nextSessionId + 1).toNat = 0 := by
      rw [show fs.superblock.nextSessionId + 1 = 0 from hzero]
      rfl
    rw [UInt32.toNat_add, UInt32.toNat_one] at hnext
    omega

/-- What a step of the recorder does to the store: nothing but read it, or store a session. -/
theorem RecorderOp.run_fs (op : RecorderOp) (s : Trace × Fs) :
    (∃ ata, (op.run s).2 = { s.2 with ata }) ∨
      ∃ data info, (op.run s).2 = (fsWriteTraceSession data info s.2).2 := by
  obtain ⟨t, fs⟩ := s
  cases op with
  | start ticks profile => exact Or.inl ⟨fs.ata, rfl⟩
  | record c => exact Or.inl ⟨fs.ata, rfl⟩
  | replayEnd => exact Or.inl ⟨fs.ata, rfl⟩
  | stop ticks =>
    obtain ⟨hstop, -⟩ := traceStop_spec ticks t fs
    exact Or.inr ⟨_, _, hstop⟩
  | replayBegin id =>
    obtain ⟨t', ata, hrun, -⟩ := RecorderOp.run_replayBegin id t fs
    exact Or.inl ⟨ata, congrArg Prod.snd hrun⟩

theorem IdsNonzero.run (ops : List RecorderOp) {s : Trace × Fs} (hb : Bounded s)
    (h : s.2.online = true → IdsNonzero s.2.superblock s.2.inodes) :
    (recorderRun ops s).2.online = true →
      IdsNonzero (recorderRun ops s).2.superblock (recorderRun ops s).2.inodes := by
  induction ops generalizing s with
  | nil => exact h
  | cons op ops ih =>
    refine ih (hb.step op) ?_
    rcases op.run_fs s with ⟨ata, hfs⟩ | ⟨data, info, hfs⟩
    · rw [hfs]
      exact h
    · intro honline
      rw [hfs, fsWriteTraceSession_online] at honline
      rw [hfs]
      exact (h honline).write (hb.stocked honline).toSound data info

/-! ## The index -/

/-- The stored sessions, in the order of their inodes. -/
def traceInodes (t : InodeTable) : List (Fin fsMaxInodes) :=
  (List.finRange fsMaxInodes).filter fun i => (t i).isTrace

/-- A session's line: its id, its size and its event count. -/
def traceLine (n : Inode) : List UInt8 :=
  cstr "session-" ++ decimal n.sessionId.toNat ++ cstr ".bin size=" ++ decimal n.sizeBytes.toNat ++
    cstr " events=" ++ decimal n.eventCount.toNat ++ [0x0a]

def traceIndexText (t : InodeTable) (listed : List (Fin fsMaxInodes)) : List UInt8 :=
  cstr "trace sessions\n" ++ listed.flatMap fun i => traceLine (t i)

theorem renderTraceIndex_eq (cap : UInt32) (fs : Fs) :
    renderTraceIndex cap fs =
      rendered cap (traceIndexText fs.inodes ((traceInodes fs.inodes).take 16)) := by
  have hline : ∀ (r : Rendered) (i : Fin fsMaxInodes),
      (let n := fs.inodes i
        let r := appendStr cap r (cstr "session-")
        let r := appendU64 cap r n.sessionId.toUInt64
        let r := appendStr cap r (cstr ".bin size=")
        let r := appendU64 cap r n.sizeBytes.toUInt64
        let r := appendStr cap r (cstr " events=")
        let r := appendU64 cap r n.eventCount
        appendChar cap r 0x0a) = appendStr cap r (traceLine (fs.inodes i)) := by
    intro r i
    simp only [appendU64_eq, appendChar_eq, appendStr_append, UInt32.toNat_toUInt64, traceLine,
      List.append_assoc]
  simp only at hline
  rw [renderTraceIndex, fsSnapshotTraces, List.foldl_map]
  simp only [hline]
  rw [foldl_appendStr cap fun i => traceLine (fs.inodes i), rendered, traceIndexText,
    appendStr_append]
  rfl

/-- A line is 63 characters at most, of a session the recorder can have stored. -/
theorem length_traceLine {n : Inode} (h : n.sizeBytes.toNat ≤ traceBufferCap * traceEventSize) :
    (traceLine n).length ≤ 63 := by
  have hsize : (decimal n.sizeBytes.toNat).length ≤ 6 := length_decimal_le (by decide) (by
    have hcap : traceBufferCap * traceEventSize < 10 ^ 6 := by decide
    omega)
  have hid := length_decimal_u32 n.sessionId
  have hcount := length_decimal_u64 n.eventCount
  have h1 : (cstr "session-").length = 8 := by decide
  have h2 : (cstr ".bin size=").length = 10 := by decide
  have h3 : (cstr " events=").length = 8 := by decide
  simp only [traceLine, List.length_append, h1, h2, h3, List.length_singleton]
  omega

/-- **The index fits**, to the last character. -/
theorem length_traceIndexText {s : Superblock} {t : InodeTable} (h : Stocked s t) :
    (traceIndexText t ((traceInodes t).take 16)).length ≤ vfsScratchMax - 1 := by
  have hlines := length_flatMap_le (fun i => traceLine (t i)) 63 ((traceInodes t).take 16)
    fun i hi => by
      have htrace : (t i).isTrace = true :=
        (List.mem_filter.mp (List.mem_of_mem_take hi)).2
      exact length_traceLine ((h.capped i (isTrace_used htrace)).1 htrace)
  have hcount : ((traceInodes t).take 16).length ≤ 16 := List.length_take_le 16 _
  have hhead : (cstr "trace sessions\n").length = 15 := by decide
  rw [traceIndexText, List.length_append, hhead, vfsScratchMax]
  omega

/-- What a loop of reads gets of `data`: a part of it at any time, all of it once a read comes
    back empty, and that happens before there are more reads than bytes. -/
structure ReadsBack (data : List UInt8) (outs : List (Option (List UInt8))) : Prop where
  sofar : gathered outs <+: data
  whole : some [] ∈ outs → gathered outs = data
  ends : data.length < outs.countP Option.isSome → some [] ∈ outs

theorem readsBack_of_delivers {data : List UInt8} {ns : List Nat} {outs : List (Option (List UInt8))}
    (h : Delivers data 0 ns outs) (hpos : ∀ n ∈ ns, 0 < n) : ReadsBack data outs :=
  ⟨h.sofar, h.whole hpos, h.ends hpos⟩

/-- A program opens the path and reads, in chunks of any sizes: `data` is what it gets, and no
    read fails while the drive answers. -/
structure ReadsAs (path data : List UInt8) (v : Vfs) : Prop where
  opens : ∀ flags, (∃ i, v.fdTable i = none) → (vfsOpen path flags v).1.isSome = true
  reads : ∀ flags fd v', flags ≠ vfsOWronly → vfsOpen path flags v = (some fd, v') →
    ∀ calls : List (UInt64 × ReadFrame), (∀ c ∈ calls, 0 < c.1.toNat) →
      ∃ outs v'', vfsReads fd calls v' = .ok (outs, v'') ∧ ReadsBack data outs ∧
        (none ∈ outs → ¬ Answers v.nodes.fs.ata)

/-- A program opens the path, and every read fails. -/
structure Unreadable (path : List UInt8) (v : Vfs) : Prop where
  reads : ∀ flags fd v', vfsOpen path flags v = (some fd, v') →
    ∀ calls : List (UInt64 × ReadFrame), ∃ v'',
      vfsReads fd calls v' = .ok (calls.map fun _ => none, v'')

/-- The paths of the index. -/
def indexPaths : List (List UInt8) := [cstr "/trace", cstr "/trace/", cstr "/trace/index"]

/-- Reading a path in chunks, by what each read does. -/
theorem ReadsAs.intro {path data : List UInt8} {kind : VfsNodeType} {v : Vfs}
    (hkind : pathKind path = some kind) (hlen : path.length < vfsPathMax) (known : Nodes → Prop)
    (hknown : known v.nodes)
    (hread : ∀ flags k, known k → ∀ pos : UInt32, pos.toNat ≤ data.length → ∀ bytes f,
      ∃ out pos' k', readFromNode ⟨flags, pos, kind, path⟩ bytes f k = .ok (out, pos', k') ∧
        known k' ∧ ReadStep data (¬ Answers v.nodes.fs.ata) pos bytes out pos') :
    ReadsAs path data v where
  opens flags hfree := vfsOpen_isSome hkind hlen flags hfree
  reads flags fd v' hflags hopen calls hcalls := by
    obtain ⟨kind', hkind', hfd, hnodes⟩ := vfsOpen_spec hopen
    rw [hkind, Option.some.injEq] at hkind'
    subst hkind'
    obtain ⟨outs, v'', hreads, hdelivers, hnone⟩ := vfsReads_delivers hflags (hread flags) fd calls
      v' 0 hfd (Nat.zero_le _) (by rw [hnodes]; exact hknown)
    refine ⟨outs, v'', hreads, readsBack_of_delivers hdelivers fun n hn => ?_, hnone⟩
    obtain ⟨c, hc, rfl⟩ := List.mem_map.mp hn
    exact hcalls c hc

theorem readsAs_index {v : Vfs}
    (h : Stocked v.nodes.fs.superblock v.nodes.fs.inodes) {path : List UInt8}
    (hpath : path ∈ indexPaths) :
    ReadsAs path (traceIndexText v.nodes.fs.inodes ((traceInodes v.nodes.fs.inodes).take 16))
      v := by
  have hkind : ∀ p ∈ indexPaths, pathKind p = some .traceIndex ∧ p.length < vfsPathMax := by
    decide
  refine ReadsAs.intro (hkind path hpath).1 (hkind path hpath).2 (fun k => k.fs = v.nodes.fs) rfl ?_
  intro flags k hk pos hpos bytes f
  have hcap : (UInt32.ofNat vfsScratchMax).toNat = vfsScratchMax := by decide
  have hstep := readRendered_step (UInt32.ofNat vfsScratchMax) (by decide)
    (by rw [hcap]; exact length_traceIndexText h) hpos f.scratch bytes
  cases hr : readRendered (some (rendered (UInt32.ofNat vfsScratchMax) (traceIndexText
      v.nodes.fs.inodes ((traceInodes v.nodes.fs.inodes).take 16)))) f.scratch pos bytes with
  | mk out pos' =>
  rw [hr] at hstep
  refine ⟨out, pos', k, ?_, hk, ?_⟩
  · simp only [readFromNode, renderNode, bind, Except.bind, renderTraceIndex_eq, hk, hr]
  · rcases hstep with ⟨hfalse, -⟩ | hstep
    · exact hfalse.elim
    · exact Or.inr hstep

theorem unreadable_session {v : Vfs} {i : Fin fsMaxInodes} (h : Shelved v.nodes.fs i)
    (hlong : vfsScratchMax < (v.nodes.fs.inodes i).sizeBytes.toNat) :
    Unreadable (sessionPath (v.nodes.fs.inodes i).sessionId) v := by
  refine ⟨fun flags fd v' hopen calls => ?_⟩
  obtain ⟨kind, hkind, hfd, hnodes⟩ := vfsOpen_spec hopen
  rw [pathKind_sessionPath, Option.some.injEq] at hkind
  subst hkind
  -- each read comes back with -1 and leaves the descriptor where it was
  have hread : ∀ bytes f, ∃ v'', vfsRead fd bytes f v' = .ok (none, v'') ∧
      v''.fdTable = v'.fdTable ∧ v''.nodes = v'.nodes := by
    intro bytes f
    have hfind : v'.findFd (fd.val : Int) = some (fd, ⟨flags, 0, .traceSession,
        sessionPath (v.nodes.fs.inodes i).sessionId⟩) := by
      rw [findFd_fin, hfd]
      rfl
    have hnone : readTraceFile (sessionPath (v.nodes.fs.inodes i).sessionId) 0 bytes false f.scratch
        v'.nodes.fs = .ok (none, 0, v'.nodes.fs) := by
      rw [hnodes]
      exact readTraceFile_long h hlong 0 bytes f.scratch
    unfold vfsRead
    simp only [hfind]
    split
    · exact ⟨v', rfl, rfl, rfl⟩
    · simp only [readFromNode, hnone, bind, Except.bind]
      refine ⟨_, rfl, ?_, rfl⟩
      rw [Function.update_eq_self_iff]
      exact hfd.symm
  induction calls with
  | nil => exact ⟨v', rfl⟩
  | cons call calls ih =>
    obtain ⟨bytes, f⟩ := call
    obtain ⟨v₁, hfirst, htable, hnodes₁⟩ := hread bytes f
    obtain ⟨v'', hrest⟩ := ih
    have hsame : v₁ = v' := by
      cases v₁
      cases v'
      simp_all
    subst hsame
    exact ⟨v'', by simp only [vfsReads, hfirst, hrest, bind, Except.bind, List.map_cons]⟩

theorem length_vfsReads {fd : Int} : ∀ (calls : List (UInt64 × ReadFrame)) {v v' : Vfs}
    {outs : List (Option (List UInt8))}, vfsReads fd calls v = .ok (outs, v') →
      outs.length = calls.length
  | [], v, v', outs, h => by
    cases h
    rfl
  | (bytes, f) :: calls, v, v', outs, h => by
    simp only [vfsReads, bind, Except.bind] at h
    split at h
    · cases h
    · rename_i first hfirst
      split at h
      · cases h
      · rename_i rest hrest
        cases h
        rw [List.length_cons, List.length_cons, length_vfsReads calls hrest]

/-- A path reads as one thing only. -/
theorem ReadsAs.unique {path d e : List UInt8} {v : Vfs} (hd : ReadsAs path d v)
    (he : ReadsAs path e v) (hfree : ∃ i, v.fdTable i = none) (ha : Answers v.nodes.fs.ata) :
    d = e := by
  cases hopen : vfsOpen path vfsORdonly v with
  | mk fd v' =>
  have hsome := hd.opens vfsORdonly hfree
  rw [hopen] at hsome
  obtain ⟨i, rfl⟩ := Option.isSome_iff_exists.mp hsome
  -- byte by byte, and once more than there are bytes
  let calls : List (UInt64 × ReadFrame) :=
    List.replicate (max d.length e.length + 1) (1, ⟨fun _ => 0, fun _ => 0, fun _ => 0⟩)
  have hcalls : ∀ c ∈ calls, 0 < c.1.toNat := fun c hc => by
    rw [List.eq_of_mem_replicate hc]
    decide
  obtain ⟨outs, v₁, hreads, hback, hnone⟩ := hd.reads vfsORdonly i v' (by decide) hopen calls hcalls
  obtain ⟨outs', v₂, hreads', hback', -⟩ := he.reads vfsORdonly i v' (by decide) hopen calls hcalls
  rw [hreads, Except.ok.injEq, Prod.mk.injEq] at hreads'
  obtain ⟨rfl, -⟩ := hreads'
  have hall : outs.countP Option.isSome = max d.length e.length + 1 := by
    have hlen := length_vfsReads calls hreads
    rw [List.length_replicate] at hlen
    rw [← hlen]
    refine List.countP_eq_length.mpr fun out hout => ?_
    cases out with
    | none => exact absurd ha (hnone hout)
    | some bytes => rfl
  have hend : some [] ∈ outs := hback.ends (by omega)
  rw [← hback.whole hend, hback'.whole hend]

theorem Unreadable.not_readsAs {path data : List UInt8} {v : Vfs} (h : Unreadable path v)
    (hfree : ∃ i, v.fdTable i = none) (ha : Answers v.nodes.fs.ata) : ¬ ReadsAs path data v := by
  intro hreads
  have hsome := hreads.opens vfsORdonly hfree
  cases hopen : vfsOpen path vfsORdonly v with
  | mk fd v' =>
  rw [hopen] at hsome
  obtain ⟨i, rfl⟩ := Option.isSome_iff_exists.mp hsome
  let calls : List (UInt64 × ReadFrame) := [(1, ⟨fun _ => 0, fun _ => 0, fun _ => 0⟩)]
  obtain ⟨outs, v₁, hgood, -, hnone⟩ := hreads.reads vfsORdonly i v' (by decide) hopen calls
    fun c hc => by
      rw [List.mem_singleton.mp hc]
      decide
  obtain ⟨v₂, hbad⟩ := h.reads vfsORdonly i v' hopen calls
  rw [hgood, Except.ok.injEq, Prod.mk.injEq] at hbad
  rw [hbad.1] at hnone
  exact hnone List.mem_cons_self ha

/-- What `fs_read_trace_session` yields, into any buffer with room: this, unless the drive
    fails. -/
def Yields (id : UInt32) (data : List UInt8) (fs : Fs) : Prop :=
  ∀ (cap : Nat) (buf : Buffer cap), data.length ≤ cap → ∃ total buf' fs',
    fsReadTraceSession id buf fs = .ok (total, buf', fs') ∧
      (total = none → ¬ Answers fs.ata) ∧
      ∀ n, total = some n → n.toNat = data.length ∧ buf'.contents n.toNat = data

theorem Shelved.yields {fs : Fs} {i : Fin fsMaxInodes} (h : Shelved fs i) :
    Yields (fs.inodes i).sessionId (fileData fs i) fs := by
  intro cap buf hcap
  have hlen := length_fileData h.toPlaced
  rw [hlen] at hcap
  obtain ⟨n, ok, hok, hreads⟩ := fsReadInode_data h.toPlaced hcap
  obtain ⟨buf', hread, hcontents⟩ := hreads buf
  refine ⟨_, buf', _, by rw [fsReadTraceSession, h.found]; exact hread, fun hnone ha => ?_,
    fun n hn => ?_⟩
  · rw [hok ha] at hnone
    cases hnone
  · cases ok with
    | false => cases hn
    | true =>
      cases hn
      exact ⟨hlen.symm, hcontents rfl⟩

/-- The disk a boot finds, when it is one of this filesystem's. -/
structure Kept (s : Superblock) (t : InodeTable) : Prop extends Stocked s t, IdsNonzero s t

theorem Kept.shelved {fs : Fs} (h : Kept fs.superblock fs.inodes) (honline : fs.online = true)
    {i : Fin fsMaxInodes} (hi : (fs.inodes i).isTrace = true) : Shelved fs i where
  toPlaced := h.toStocked.placed honline (isTrace_used hi)
  found := fsFindSession_of_unique hi rfl fun j hj hjd =>
    h.issued.distinct j i _ (sessionOf_trace hj) (by rw [hjd]; exact sessionOf_trace hi)
  numbered := h.ids i hi

theorem Kept.run {a : Ata} {fs : Fs}
    (hdisk : ¬ Formatted a.sector ∨ Kept (diskSuperblock a.sector) (diskInodes a.sector))
    (ops : List RecorderOp) (hfs : fs = (recorderRun ops (recorderBoot a)).2)
    (honline : fs.online = true) : Kept fs.superblock fs.inodes := by
  subst hfs
  have hb : Bounded (recorderBoot a) := Bounded.boot (hdisk.imp_right (·.toStocked))
  have hn := IdsNonzero.run ops hb (IdsNonzero.boot (hdisk.imp_right (·.toIdsNonzero))) honline
  exact { (hb.run ops).stocked honline, hn with }

/-- A recording of so many events, stored. -/
def recording (events : Nat) : List RecorderOp :=
  .start 0 workloadProfileNone ::
    List.replicate events (.record ⟨0, 1, TraceEventType.shell.code, 0, 0, 0⟩) ++ [.stop 0]

/-- The VFS over a filesystem, with nothing open and nothing going on. -/
def vfsOver (fs : Fs) : Vfs :=
  vfsInit ⟨Devices.loaded, taskTableBoot ⟨0, 0, 0, 0, fun _ => 0⟩, 0, 0, fs⟩

/-- The index lists every session, and every session reads back. -/
structure NamespaceAgrees (v : Vfs) : Prop where
  index : ∀ path ∈ indexPaths,
    ReadsAs path (traceIndexText v.nodes.fs.inodes (traceInodes v.nodes.fs.inodes)) v
  session : ∀ i ∈ traceInodes v.nodes.fs.inodes,
    ReadsAs (sessionPath (v.nodes.fs.inodes i).sessionId) (fileData v.nodes.fs i) v

/-- An index that leaves a session out is not the whole index. -/
theorem traceIndexText_take_ne {t : InodeTable} (h : 16 < (traceInodes t).length) :
    traceIndexText t ((traceInodes t).take 16) ≠ traceIndexText t (traceInodes t) := by
  intro heq
  rw [traceIndexText, traceIndexText, List.append_cancel_left_eq] at heq
  have hsplit := congrArg (List.flatMap fun i => traceLine (t i))
    (List.take_append_drop 16 (traceInodes t))
  rw [List.flatMap_append, ← heq, List.append_right_eq_self, List.flatMap_eq_nil_iff] at hsplit
  obtain ⟨i, hi⟩ := List.exists_mem_of_ne_nil _ (show (traceInodes t).drop 16 ≠ [] by
    rw [Ne, List.drop_eq_nil_iff]
    omega)
  have hline := hsplit i hi
  simp [traceLine] at hline

/-- One session past the scratch buffer is enough. -/
theorem NamespaceAgrees.short {v : Vfs} (h : NamespaceAgrees v)
    (hkept : Kept v.nodes.fs.superblock v.nodes.fs.inodes) (honline : v.nodes.fs.online = true)
    (hfree : ∃ i, v.fdTable i = none) (ha : Answers v.nodes.fs.ata) {i : Fin fsMaxInodes}
    (hi : (v.nodes.fs.inodes i).isTrace = true) :
    (v.nodes.fs.inodes i).sizeBytes.toNat ≤ vfsScratchMax := by
  by_contra hlong
  have hstored : i ∈ traceInodes v.nodes.fs.inodes :=
    List.mem_filter.mpr ⟨List.mem_finRange _, hi⟩
  exact (unreadable_session (hkept.shelved honline hi) (by omega)).not_readsAs hfree ha
    (h.session i hstored)

/-- And so is one more session than the index has room for. -/
theorem NamespaceAgrees.few {v : Vfs} (h : NamespaceAgrees v)
    (hkept : Kept v.nodes.fs.superblock v.nodes.fs.inodes) (hfree : ∃ i, v.fdTable i = none)
    (ha : Answers v.nodes.fs.ata) : (traceInodes v.nodes.fs.inodes).length ≤ 16 := by
  by_contra hmany
  have hpath : cstr "/trace/index" ∈ indexPaths := by decide
  have hindex := readsAs_index hkept.toStocked hpath
  exact traceIndexText_take_ne (by omega) (hindex.unique (h.index _ hpath) hfree ha)

def shortSession : Fs := (recorderRun (recording 2) (recorderBoot blankDrive)).2

end Proof
end BumbelBee
