import BumbelBee.Kernel.Vfs
import BumbelBee.Kernel.BuiltinExec
import BumbelBee.Proof.Atomic
import BumbelBee.Proof.Replay

/-!
# Are the readers' buffers large enough?

`fs_read_trace_session` and `fs_read_exec_file` are not told how large the buffer is they
copy into. What bounds the copy is what is stored: a session holds at most the 4096 events
the recorder has room for, a seeded executable at most 256 bytes. `Stocked` is that bound,
an invariant of every boot and every run of the recorder, whatever the drive does. Under it
five of the six readers have room for whatever they read; `fs_traceview`, with its 128
events, has room exactly when the session has no more of them, or the drive fails it before
it gets there.

None of the six readers looks at `size_bytes` before the copy, and none of the buffers is of the
size the store allows. The bound is kept on the other side, by those who write. It is lost where the
disk comes from elsewhere, so the theorem asks it of the disk the machine is booted from and proves
that nothing the machine does gives it up.
-/

namespace BumbelBee
namespace Proof

open Lib Kernel

/-! ## One read

A read copies as far as the drive goes, so whether it leaves its buffer is a question of the file,
of the buffer and of how many sectors come in. That is an equivalence, and each of the readers is an
instance of it with its own capacity.
-/

/-- **When a read leaves its buffer**: when the sectors that come in carry more of the file
    than fits. -/
theorem fsReadInode_isOk {fs : Fs} (hsound : Sound fs.superblock fs.inodes)
    (honline : fs.online = true) {i : Fin fsMaxInodes} (hused : (fs.inodes i).used ≠ 0)
    (hcount : (fs.inodes i).sectorCount.toNat =
      max 1 (((fs.inodes i).sizeBytes.toNat + 511) / 512)) {cap : Nat} (buf : Buffer cap) :
    (fsReadInode (some i) buf fs).isOk = true ↔ fs.ata.ready = false ∨
      min (fs.inodes i).sizeBytes.toNat
        (answered fs.ata (fs.inodes i).sectorCount.toNat 0 * sectorSize) ≤ cap := by
  have hin := hsound.packed.within i _ (extentOf_used hused)
  have hmark := hsound.mark_le
  simp only [Extent.stop] at hin
  rw [fsReadInode_some honline]
  cases hready : fs.ata.ready with
  | false =>
    rw [fsReadSectors_notReady _ _ _ hready (by omega)]
    simp [Except.map, Except.isOk, Except.toBool]
  | true =>
    have hstart : ∀ j < (fs.inodes i).sectorCount.toNat,
        j * sectorSize ≤ (fs.inodes i).sizeBytes.toNat := fun j hj => by
      simp only [sectorSize]
      omega
    have hans := answered_le fs.ata (fs.inodes i).sectorCount.toNat 0
    have hcopy := @copyBlocks_isOk cap sectorSize (fs.inodes i).sizeBytes.toNat
      (readSpan fs.ata.sector (fs.inodes i).startLba.toNat
        (answered fs.ata (fs.inodes i).sectorCount.toNat 0)) 0 buf (by simp) (by simp) fun j hj => by
      rw [Nat.zero_add]
      exact hstart j (by rw [length_readSpan] at hj; omega)
    rw [length_readSpan, Nat.zero_add] at hcopy
    have hloop := fsReadSectors_eq (fs.inodes i) (fs.inodes i).sectorCount.toNat 0 buf hready
      (by omega) fun j hj => by rw [Nat.zero_add]; exact hstart j hj
    simp only [Nat.add_zero] at hloop
    rw [show (0 : UInt32) = UInt32.ofNat 0 from rfl, hloop]
    simp only [Bool.true_eq_false, false_or]
    rw [← hcopy]
    cases copyBlocks sectorSize (fs.inodes i).sizeBytes.toNat 0
      (readSpan fs.ata.sector (fs.inodes i).startLba.toNat
        (answered fs.ata (fs.inodes i).sectorCount.toNat 0)) buf <;> rfl

/-- A read leaves everything but the drive as it was. -/
theorem fsReadInode_memory {cap : Nat} {i : Option (Fin fsMaxInodes)} {buf buf' : Buffer cap}
    {fs fs' : Fs} {r : Option UInt32} (h : fsReadInode i buf fs = .ok (r, buf', fs')) :
    ∃ ata, fs' = { fs with ata } := by
  unfold fsReadInode at h
  split at h
  · rename_i j honline
    cases hread : fsReadSectors (fs.inodes j) (fs.inodes j).sectorCount.toNat 0 buf fs.ata with
    | error e => simp [hread, bind, Except.bind] at h
    | ok v =>
      simp only [hread, bind, Except.bind, Except.ok.injEq, Prod.mk.injEq] at h
      exact ⟨_, h.2.2.symm⟩
  · simp only [Except.ok.injEq, Prod.mk.injEq] at h
    exact ⟨fs.ata, h.2.2.symm⟩

/-! ## What is stored

A file's size is bounded by the buffer of whoever wrote it: the recorder's for a session, and that
of the seeded images for the executables. These are bounds on the table, and part of what a foreign
disk need not have.
-/

/-- No file is larger than what its writer had room for. -/
def Capped (n : Inode) : Prop :=
  (n.isTrace = true → n.sizeBytes.toNat ≤ traceBufferCap * traceEventSize) ∧
    (n.isExec = true → n.sizeBytes.toNat ≤ 256)

structure Stocked (s : Superblock) (t : InodeTable) : Prop extends Sound s t where
  sized : Sized t
  capped : EachUsed Capped t

theorem storedInode_isExec (s : Superblock) (bytes : UInt32) (info : Option TraceSessionInfo) :
    (storedInode s bytes info).isExec = false := by
  simp [storedInode, sessionInode, Inode.isExec, inodeTypeTrace, inodeTypeExec]

theorem storedInode_capped (s : Superblock) (info : Option TraceSessionInfo) {data : List UInt8}
    (hlen : data.length ≤ traceBufferCap * traceEventSize) :
    Capped (storedInode s (bytesOf data) info) := by
  refine ⟨fun _ => ?_, fun h => absurd h (by simp [storedInode_isExec])⟩
  have hsize : traceBufferCap * traceEventSize = 163840 := by decide
  show (bytesOf data).toNat ≤ _
  rwa [bytesOf_toNat (by omega)]

theorem seededInode_capped (path : List UInt8) (s : Superblock) {data : List UInt8}
    (hlen : data.length ≤ 256) : Capped (seededInode path s (bytesOf data)) := by
  refine ⟨fun h => absurd h ?_, fun _ => ?_⟩
  · simp [Inode.isTrace, seededInode, seedInode, inodeTypeExec, inodeTypeTrace]
  · show (bytesOf data).toNat ≤ _
    rwa [bytesOf_toNat (by omega)]

theorem Stocked.boot {a : Ata}
    (hdisk : ¬ Formatted a.sector ∨ Stocked (diskSuperblock a.sector) (diskInodes a.sector))
    (h : (fsBoot a).online = true) : Stocked (fsBoot a).superblock (fsBoot a).inodes where
  toSound := Sound.boot (hdisk.imp_right (·.toSound)) h
  sized := EachUsed.boot (hdisk.imp_right (·.sized))
    (fun path _ s hlen => seededInode_sized path s (by omega)) h
  capped := EachUsed.boot (hdisk.imp_right (·.capped))
    (fun path _ s hlen => seededInode_capped path s hlen) h

theorem Stocked.write {fs : Fs} (h : Stocked fs.superblock fs.inodes) {data : List UInt8}
    (hlen : data.length ≤ traceBufferCap * traceEventSize) (info : Option TraceSessionInfo) :
    Stocked (fsWriteTraceSession data info fs).2.superblock
      (fsWriteTraceSession data info fs).2.inodes where
  toSound := h.toSound.write data info
  sized := h.sized.write fun s => storedInode_sized s info (by
    have hsize : traceBufferCap * traceEventSize = 163840 := by decide
    omega)
  capped := h.capped.write fun s => storedInode_capped s info hlen

/-! ## Runs of the recorder -/

/-- What the shell, the tasks and the interrupts ask of the recorder. -/
inductive RecorderOp
  | start (ticks : UInt64) (profile : UInt32)
  | record (c : RecordCall)
  | stop (ticks : UInt64)
  | replayBegin (id : UInt32)
  | replayEnd

def RecorderOp.run : RecorderOp → Trace × Fs → Trace × Fs
  | .start ticks profile, (t, fs) => (traceStartProfile ticks profile t, fs)
  | .record c, (t, fs) => (c.run t, fs)
  | .stop ticks, (t, fs) => ((traceStop ticks t fs).1, (traceStop ticks t fs).2.1)
  | .replayBegin id, (t, fs) =>
    match traceReplayBegin id t fs with
    | .ok (_, t, fs) => (t, fs)
    | .error _ => (t, fs)
  | .replayEnd, (t, fs) => (traceReplayEnd t, fs)

def recorderRun (ops : List RecorderOp) (s : Trace × Fs) : Trace × Fs :=
  ops.foldl (fun s op => op.run s) s

/-- The kernel's recorder and store after booting from a drive. -/
def recorderBoot (a : Ata) : Trace × Fs := (traceInit Trace.loaded, fsBoot a)

/-- The recorder is within its buffer and, when the store is up, so is every file. -/
structure Bounded (s : Trace × Fs) : Prop where
  events : s.1.currentEvents.toNat ≤ traceBufferCap
  stocked : s.2.online = true → Stocked s.2.superblock s.2.inodes

theorem Bounded.boot {a : Ata}
    (hdisk : ¬ Formatted a.sector ∨ Stocked (diskSuperblock a.sector) (diskInodes a.sector)) :
    Bounded (recorderBoot a) where
  events := Nat.zero_le _
  stocked := Stocked.boot hdisk

/-- A call of `trace_record` stores one event at most, and none in a full buffer. -/
theorem RecordCall.currentEvents (c : RecordCall) {t : Trace}
    (h : t.currentEvents.toNat ≤ traceBufferCap) :
    (c.run t).currentEvents.toNat ≤ traceBufferCap := by
  have hran := c.ran t
  generalize c.run t = t' at hran ⊢
  cases hran with
  | hidden => exact h
  | compared => exact h
  | closed => exact h
  | full => exact h
  | stored _ _ _ room =>
    rw [toNat_currentEvents_succ room]
    exact room

/-- Beginning a replay leaves the recording as it is, and reads the store. -/
theorem RecorderOp.run_replayBegin (id : UInt32) (t : Trace) (fs : Fs) :
    ∃ t' ata, (RecorderOp.replayBegin id).run (t, fs) = (t', { fs with ata }) ∧
      t'.currentEvents = t.currentEvents ∧ t'.sessions = t.sessions := by
  simp only [RecorderOp.run]
  cases hbegin : traceReplayBegin id t fs with
  | error e => exact ⟨t, fs.ata, rfl, rfl, rfl⟩
  | ok r =>
    obtain ⟨session, t', fs'⟩ := r
    obtain ⟨bytes, buf, hread, hend⟩ := traceReplayBegin_cases hbegin
    obtain ⟨ata, rfl⟩ := fsReadInode_memory hread
    rcases hend with ⟨-, -, rfl⟩ | ⟨size, info, -, -, -, rfl⟩
    · exact ⟨_, ata, rfl, rfl, rfl⟩
    · exact ⟨_, ata, rfl, rfl, rfl⟩

theorem Bounded.step {s : Trace × Fs} (h : Bounded s) (op : RecorderOp) : Bounded (op.run s) := by
  obtain ⟨t, fs⟩ := s
  cases op with
  | start ticks profile => exact ⟨Nat.zero_le _, h.stocked⟩
  | record c => exact ⟨c.currentEvents h.events, h.stocked⟩
  | stop ticks =>
    have hlen : (encodeEvents t.events).length ≤ traceBufferCap * traceEventSize := by
      rw [length_encodeEvents, Nat.mul_comm]
      refine Nat.mul_le_mul_right _ ?_
      simpa [Trace.events] using h.events
    obtain ⟨hstop, -, -, -, hcount, -⟩ := traceStop_spec ticks t fs
    simp only [RecorderOp.run]
    refine ⟨by rw [hcount]; exact h.events, fun honline => ?_⟩
    simp only [hstop, fsWriteTraceSession_online] at honline ⊢
    exact (h.stocked honline).write hlen _
  | replayBegin id =>
    obtain ⟨t', ata, hrun, hcurrent, -⟩ := RecorderOp.run_replayBegin id t fs
    rw [hrun]
    exact ⟨hcurrent.symm ▸ h.events, h.stocked⟩
  | replayEnd =>
    refine ⟨?_, h.stocked⟩
    simp only [RecorderOp.run, traceReplayEnd]
    split <;> exact h.events

theorem Bounded.run : ∀ (ops : List RecorderOp) {s : Trace × Fs}, Bounded s →
    Bounded (recorderRun ops s)
  | [], _, h => h
  | op :: ops, _, h => Bounded.run ops (h.step op)

/-! ## The readers

Five of the six are bounded by what is stored, since their buffers are of the writers' sizes or they
ask for the size first. The sixth is `traceview`.
-/

/-- A read into a buffer the file fits in. -/
theorem fsReadInode_fits {fs : Fs}
    (h : fs.online = true → Stocked fs.superblock fs.inodes) {i : Option (Fin fsMaxInodes)}
    {cap : Nat} (buf : Buffer cap)
    (hi : ∀ j, i = some j → (fs.inodes j).used ≠ 0 ∧
      (fs.online = true → (fs.inodes j).sizeBytes.toNat ≤ cap)) :
    (fsReadInode i buf fs).isOk = true := by
  cases honline : fs.online with
  | false => simp [fsReadInode, honline, Except.isOk, Except.toBool]
  | true =>
    cases i with
    | none => simp [fsReadInode, honline, Except.isOk, Except.toBool]
    | some j =>
      obtain ⟨hused, hcap⟩ := hi j rfl
      have hcap := hcap honline
      refine (fsReadInode_isOk (h honline).toSound honline hused ((h honline).sized j hused) buf).mpr
        (Or.inr ?_)
      omega

theorem isExec_used {n : Inode} (h : n.isExec = true) : n.used ≠ 0 := by
  simp only [Inode.isExec, Bool.and_eq_true, bne_iff_ne] at h
  exact h.1

/-- Every session fits in a buffer of the recorder's size. -/
theorem fsReadTraceSession_fits {fs : Fs}
    (h : fs.online = true → Stocked fs.superblock fs.inodes) (id : UInt32) (buf : TraceBuffer) :
    (fsReadTraceSession id buf fs).isOk = true :=
  fsReadInode_fits h buf fun j hj => by
    have htrace := (fsFindSession_some hj).1
    exact ⟨isTrace_used htrace, fun honline =>
      ((h honline).capped j (isTrace_used htrace)).1 htrace⟩

theorem readImage_fits {fs : Fs}
    (h : fs.online = true → Stocked fs.superblock fs.inodes) (path : List UInt8)
    (stack : Nat → UInt8) : (readImage path stack fs).isOk = true := by
  rw [readImage, isOk_bind fun _ => rfl]
  refine fsReadInode_fits h _ fun j hj => ?_
  have hexec := (fsFindExec_some hj).1
  exact ⟨isExec_used hexec, fun honline => ((h honline).capped j (isExec_used hexec)).2 hexec⟩

theorem renderPathImage_fits {fs : Fs}
    (h : fs.online = true → Stocked fs.superblock fs.inodes) (path : List UInt8)
    (stack : Nat → UInt8) : (renderPathImage path stack fs).isOk = true := by
  unfold renderPathImage
  split
  · rfl
  · split
    · exact readImage_fits h path stack
    · rfl

theorem traceReplaySession_fits {fs : Fs}
    (h : fs.online = true → Stocked fs.superblock fs.inodes) (id : UInt32)
    (stack : Nat → UInt8) : (traceReplaySession id stack fs).isOk = true := by
  rw [traceReplaySession, isOk_bind fun r => by rcases r with ⟨_ | _, _, _⟩ <;> rfl]
  exact fsReadTraceSession_fits h id _

theorem traceReplayBegin_fits {fs : Fs}
    (h : fs.online = true → Stocked fs.superblock fs.inodes) (id : UInt32) (t : Trace) :
    (traceReplayBegin id t fs).isOk = true := by
  rw [traceReplayBegin, isOk_bind fun r => by rcases r with ⟨_ | _, _, _⟩ <;> rfl]
  exact fsReadTraceSession_fits h id _

/-- A held session that fits is read within the replay buffer, whatever the drive does. -/
theorem Finds.begin_isOk {fs : Fs} {i : Fin fsMaxInodes} {id : UInt32} {data : List UInt8}
    {info : Option TraceSessionInfo} (h : Finds fs i id data info)
    (hcap : data.length ≤ traceBufferCap * traceEventSize) (t : Trace) :
    (traceReplayBegin id t fs).isOk = true := by
  have hsize : traceBufferCap * traceEventSize = 163840 := by decide
  rw [traceReplayBegin, isOk_bind fun r => by rcases r with ⟨_ | _, _, _⟩ <;> rfl,
    fsReadTraceSession, h.found]
  exact h.stores.read_isOk (by omega) t.replayBuffer hcap

/-- The size `read_trace_file` checks is the size of the session it then reads. -/
theorem fsGetTraceSessionInfo_size {fs : Fs} {id : UInt32} {info : TraceSessionInfo}
    (h : fsGetTraceSessionInfo id fs = some info) {i : Fin fsMaxInodes}
    (hi : fsFindSession fs.inodes id = some i) : info.sizeBytes = (fs.inodes i).sizeBytes := by
  cases honline : fs.online with
  | false => simp [fsGetTraceSessionInfo, honline] at h
  | true =>
    simp only [fsGetTraceSessionInfo, honline, hi, Option.some.injEq] at h
    rw [← h]

theorem readTraceFile_fits {fs : Fs}
    (h : fs.online = true → Stocked fs.superblock fs.inodes) (path : List UInt8) (pos : UInt32)
    (bytes : UInt64) (metadataOnly : Bool) (stack : Nat → UInt8) :
    (readTraceFile path pos bytes metadataOnly stack fs).isOk = true := by
  unfold readTraceFile
  cases parseTraceSessionId path with
  | none => rfl
  | some id =>
    simp only
    cases hinfo : fsGetTraceSessionInfo id fs with
    | none => rfl
    | some info =>
      simp only
      split
      · split <;> rfl
      · split
        · rfl
        · rename_i hsmall
          have hmax : (UInt32.ofNat vfsScratchMax).toNat = vfsScratchMax := by decide
          rw [gt_iff_lt, UInt32.lt_iff_toNat_lt, hmax] at hsmall
          rw [isOk_bind fun r => by
            rcases r with ⟨_ | total, _, _⟩
            · rfl
            · simp only
              split <;> rfl]
          refine fsReadInode_fits h _ fun j hj => ?_
          rw [← fsGetTraceSessionInfo_size hinfo hj]
          exact ⟨isTrace_used (fsFindSession_some hj).1, fun _ => by omega⟩

/-- The session `traceview` is asked for is longer than its buffer, and the drive gives it
    the first sector behind the end. -/
structure TraceviewOverflows (id : UInt32) (fs : Fs) : Prop where
  online : fs.online = true
  long : ∃ i, fsFindSession fs.inodes id = some i ∧
    128 * traceEventSize < (fs.inodes i).sizeBytes.toNat
  ready : fs.ata.ready = true
  reads : ∀ k < 11, Completes fs.ata k

theorem fsTraceview_fits_iff {fs : Fs}
    (h : fs.online = true → Stocked fs.superblock fs.inodes) (id : UInt32)
    (stack : Nat → UInt8) :
    (fsTraceview id stack fs).isOk = true ↔ ¬ TraceviewOverflows id fs := by
  rw [fsTraceview, isOk_bind fun r => by rcases r with ⟨_ | _, _, _⟩ <;> rfl, fsReadTraceSession]
  -- without a store or a session nothing is read; otherwise the eleventh sector overruns
  cases honline : fs.online with
  | false =>
    refine iff_of_true (by simp [fsReadInode, honline, Except.isOk, Except.toBool]) fun hov => ?_
    rw [hov.online] at honline
    cases honline
  | true =>
    have hst := h honline
    cases hfound : fsFindSession fs.inodes id with
    | none =>
      refine iff_of_true (by simp [fsReadInode, honline, Except.isOk, Except.toBool]) fun hov => ?_
      obtain ⟨i, hi, -⟩ := hov.long
      rw [hfound] at hi
      cases hi
    | some i =>
      have hused := isTrace_used (fsFindSession_some hfound).1
      have hcount := hst.sized i hused
      have hans := le_answered fs.ata (fs.inodes i).sectorCount.toNat 0 11
      simp only [Nat.zero_add] at hans
      have hover : TraceviewOverflows id fs ↔ fs.ata.ready = true ∧
          128 * traceEventSize < (fs.inodes i).sizeBytes.toNat ∧
          11 ≤ answered fs.ata (fs.inodes i).sectorCount.toNat 0 := by
        rw [hans]
        refine ⟨fun hov => ?_, fun h =>
          ⟨honline, ⟨i, hfound, h.2.1⟩, h.1, h.2.2.2⟩⟩
        obtain ⟨j, hj, hlong⟩ := hov.long
        rw [hfound, Option.some.injEq] at hj
        subst hj
        have h128 : 128 * traceEventSize = 5120 := by decide
        exact ⟨hov.ready, hlong, by omega, hov.reads⟩
      rw [fsReadInode_isOk hst.toSound honline hused (hst.sized i hused), hover]
      have h128 : 128 * traceEventSize = 10 * sectorSize := by decide
      simp only [sectorSize] at h128 ⊢
      cases fs.ata.ready with
      | false => simp
      | true =>
        simp only [Bool.true_eq_false, false_or, true_and]
        omega

/-- Nothing a reader asks for is copied past the end of its buffer. -/
structure ReadersFit (id : UInt32) (s : Trace × Fs) : Prop where
  traceview : ∀ stack, (fsTraceview id stack s.2).isOk = true
  replaySession : ∀ stack, (traceReplaySession id stack s.2).isOk = true
  replayBegin : (traceReplayBegin id s.1 s.2).isOk = true
  traceFile : ∀ path pos bytes metadataOnly stack,
    (readTraceFile path pos bytes metadataOnly stack s.2).isOk = true
  renderPath : ∀ path stack, (renderPathImage path stack s.2).isOk = true
  runSync : ∀ path stack, (runSyncImage path stack s.2).isOk = true

/-- **The readers' buffers**: over any boot and any run of the recorder, whatever the drive
    does, the only copy past the end of a buffer is `traceview`'s, of a session of more than
    128 events that the drive delivers.

    `hdisk` is that disk: either it carries nothing of this filesystem, and is formatted, or what it
    stores is `Stocked`, as every disk is that this kernel has written. `ops` is any run of the
    recorder, over a drive that may fail at any command, and `id` any id. The right side is about
    one reader, and it speaks of the drive because a copy that the drive stops in time does not get
    to the end of the buffer. -/
theorem readersFit_iff (a : Ata)
    (hdisk : ¬ Formatted a.sector ∨ Stocked (diskSuperblock a.sector) (diskInodes a.sector))
    (ops : List RecorderOp) (id : UInt32) :
    ReadersFit id (recorderRun ops (recorderBoot a)) ↔
      ¬ TraceviewOverflows id (recorderRun ops (recorderBoot a)).2 := by
  have hst := ((Bounded.boot hdisk).run ops).stocked
  refine ⟨fun h => (fsTraceview_fits_iff hst id _).mp (h.traceview fun _ => 0), fun h => ?_⟩
  exact
    { traceview := fun stack => (fsTraceview_fits_iff hst id stack).mpr h
      replaySession := traceReplaySession_fits hst id
      replayBegin := traceReplayBegin_fits hst id _
      traceFile := readTraceFile_fits hst
      renderPath := renderPathImage_fits hst
      runSync := fun path stack => by
        unfold runSyncImage
        split
        · rfl
        · exact readImage_fits hst path stack }

/-- One event more than `traceview` has room for, recorded and stored on a blank drive. -/
def longRecording : Trace × Fs :=
  recorderRun (.start 0 workloadProfileNone ::
      List.replicate 129 (.record ⟨0, 1, TraceEventType.shell.code, 0, 0, 0⟩) ++ [.stop 0])
    (recorderBoot blankDrive)

/-- `traceview 1` writes past its buffer. -/
theorem traceview_overruns : ¬ ReadersFit 1 longRecording := by
  have hst : Bounded longRecording := (Bounded.boot (Or.inl blankDrive_not_formatted)).run _
  have hrun : longRecording.2.online = true ∧
      fsFindSession longRecording.2.inodes 1 = some ⟨4, by decide⟩ ∧
      128 * traceEventSize < (longRecording.2.inodes ⟨4, by decide⟩).sizeBytes.toNat ∧
      longRecording.2.ata.ready = true ∧ ∀ k < 11, Completes longRecording.2.ata k := by
    decide +kernel
  obtain ⟨honline, hfound, hlong, hready, hreads⟩ := hrun
  exact fun h => (fsTraceview_fits_iff hst.stocked 1 _).mp (h.traceview fun _ => 0)
    ⟨honline, ⟨_, hfound, hlong⟩, hready, hreads⟩

/-- A session of two events is short enough for every reader. -/
theorem readersFit_iff_short :
    ReadersFit 1 (recorderRun [.start 0 workloadProfileNone,
      .record ⟨0, 1, TraceEventType.shell.code, 0, 0, 0⟩,
      .record ⟨1, 1, TraceEventType.shell.code, 0, 0, 0⟩, .stop 2] (recorderBoot blankDrive)) := by
  refine (readersFit_iff blankDrive (Or.inl blankDrive_not_formatted) _ 1).mpr fun hov => ?_
  obtain ⟨i, hi, hlong⟩ := hov.long
  have hfour : fsFindSession (recorderRun [.start 0 workloadProfileNone,
      .record ⟨0, 1, TraceEventType.shell.code, 0, 0, 0⟩,
      .record ⟨1, 1, TraceEventType.shell.code, 0, 0, 0⟩, .stop 2]
        (recorderBoot blankDrive)).2.inodes 1 = some ⟨4, by decide⟩ := by decide +kernel
  rw [hfour, Option.some.injEq] at hi
  subst hi
  revert hlong
  decide +kernel

end Proof
end BumbelBee
