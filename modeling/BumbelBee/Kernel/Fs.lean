import BumbelBee.Kernel.FsFormat
import BumbelBee.Kernel.Event
import BumbelBee.Kernel.ExecImage
import BumbelBee.Lib.Buffer

/-!
# The trace filesystem (`kernel/fs.c`)

The module's statics (`superblock`, `inodes`, `fs_online`) and the drive they are kept on.
A C result of 0 is `true` (or `some`), -1 is `false` (or `none`); what is printed on the
console is left out. A reader's copy into its caller's buffer is a `Buffer.copyInto`, so a
copy past the caller's capacity surfaces as an `Overrun`.

The functions are over a drive that may fail at any command, and they follow the source into each
failure: which of the statics has been changed by then, and how much of a table has reached the
disk. `fs_init` is at its most delicate there, since it formats whatever it could not read.
-/

namespace BumbelBee
namespace Kernel

open Lib

structure Fs where
  superblock : Superblock
  inodes : InodeTable
  online : Bool
  ata : Ata

/-! ## Tables on and off the disk -/

def fsFlushSuperblock (fs : Fs) : Bool × Fs :=
  let (ok, ata) := ataWrite28 fsStartLba [encodeSuperblock fs.superblock] fs.ata
  (ok, { fs with ata })

def fsFlushInodes (fs : Fs) : Bool × Fs :=
  let (ok, ata) := ataWrite28 (fsStartLba + 1) (encodeTable fs.inodes) fs.ata
  (ok, { fs with ata })

/-- The superblock in memory after the sectors that came in. -/
def loadSuperblock (ss : List Sector) (s : Superblock) : Superblock :=
  match ss with
  | [] => s
  | b :: _ => decodeSuperblock b

def fsLoad (fs : Fs) : Bool × Fs :=
  match ataRead28 fsStartLba 1 fs.ata with
  | (false, ss, ata) => (false, { fs with superblock := loadSuperblock ss fs.superblock, ata })
  | (true, ss, ata) =>
    let (ok, ts, ata) := ataRead28 (fsStartLba + 1) fsInodeSectors ata
    (ok, { fs with
      superblock := loadSuperblock ss fs.superblock
      inodes := loadInodes ts fs.inodes
      ata })

/-- The superblock of an empty filesystem. -/
def formattedSuperblock : Superblock :=
  { Superblock.zero with
    magic := fsMagic
    version := fsVersion
    totalSectors := fsTotalSectors
    inodeCount := UInt32.ofNat fsMaxInodes
    inodeTableLba := fsStartLba + 1
    dataStartLba := fsDataStartLba
    nextFreeLba := fsDataStartLba
    nextSessionId := 1 }

def fsFormat (fs : Fs) : Bool × Fs :=
  let fs := { fs with superblock := formattedSuperblock, inodes := fun _ => Inode.zero }
  match fsFlushSuperblock fs with
  | (false, fs) => (false, fs)
  | (true, fs) => fsFlushInodes fs

/-! ## Lookup and allocation -/

/-- `strcmp(inode->name, path) == 0`; the comparison runs on into the bytes behind `name`. -/
def Inode.nameIs (n : Inode) (path : List UInt8) : Bool :=
  (path ++ [0]).isPrefixOf (n.name.bytes ++ n.reserved.bytes)

def fsFindExec (t : InodeTable) (path : List UInt8) : Option (Fin fsMaxInodes) :=
  (List.finRange fsMaxInodes).find? fun i => (t i).isExec && (t i).nameIs path

def fsFindSession (t : InodeTable) (sessionId : UInt32) : Option (Fin fsMaxInodes) :=
  (List.finRange fsMaxInodes).find? fun i => (t i).isTrace && (t i).sessionId == sessionId

/-- The first unused inode, cleared and marked used. -/
def fsAllocInode (t : InodeTable) : Option (Fin fsMaxInodes × InodeTable) :=
  ((List.finRange fsMaxInodes).find? fun i => (t i).used == 0).map fun i =>
    (i, Function.update t i { Inode.zero with used := 1 })

/-- `copy_name` into a cleared `char dst[cap]`. -/
def copyName (cap : Nat) (src : List UInt8) : Block cap := Block.pad cap (src.take (cap - 1))

/-! ## Writing a file -/

/-- Sectors a file of `bytes` takes: never none. -/
def fsSectorsFor (bytes : UInt32) : UInt32 :=
  let sectors := (bytes + 512 - 1) / 512
  if sectors = 0 then 1 else sectors

/-- `sector_buf` in round `i`: the next 512 bytes at most, the rest zero. -/
def dataSector (src : List UInt8) (bytes i : UInt32) : Sector :=
  let offset := i * 512
  let chunk := if bytes > offset then bytes - offset else 0
  let chunk := if chunk > 512 then 512 else chunk
  Block.pad sectorSize ((src.drop offset.toNat).take chunk.toNat)

/-- The sector loop of `fs_write_raw_file` and `fs_write_trace_session`, from round `i` on
    with `todo` rounds left. -/
def fsWriteSectors (src : List UInt8) (bytes startLba : UInt32) : Nat → UInt32 → Ata → Bool × Ata
  | 0, _, ata => (true, ata)
  | todo + 1, i, ata =>
    match ataWrite28 (startLba + i) [dataSector src bytes i] ata with
    | (false, ata) => (false, ata)
    | (true, ata) => fsWriteSectors src bytes startLba todo (i + 1) ata

/-- `superblock.next_free_lba + sectors > FS_START_LBA + FS_TOTAL_SECTORS`. -/
def fsNoSpace (s : Superblock) (sectors : UInt32) : Bool :=
  s.nextFreeLba + sectors > fsStartLba + fsTotalSectors

def fsWriteRawFile (i : Fin fsMaxInodes) (data : List UInt8) (fs : Fs) : Bool × Fs :=
  let bytes := UInt32.ofNat data.length
  let sectors := fsSectorsFor bytes
  let startLba := fs.superblock.nextFreeLba
  if fsNoSpace fs.superblock sectors then (false, fs)
  else match fsWriteSectors data bytes startLba sectors.toNat 0 fs.ata with
    | (false, ata) => (false, { fs with ata })
    | (true, ata) =>
      (true, { fs with
        inodes := Function.update fs.inodes i
          { fs.inodes i with sizeBytes := bytes, startLba := startLba, sectorCount := sectors }
        superblock := { fs.superblock with nextFreeLba := startLba + sectors }
        ata })

def fsSeedExecFile (path data : List UInt8) (fs : Fs) : Bool × Fs :=
  match fsFindExec fs.inodes path with
  | some _ => (true, fs)
  | none =>
    match fsAllocInode fs.inodes with
    | none => (false, fs)
    | some (i, t) =>
      let t := Function.update t i { t i with type := inodeTypeExec, name := copyName 24 path }
      match fsWriteRawFile i data { fs with inodes := t } with
      | (true, fs) => (true, fs)
      | (false, fs) =>
        (false, { fs with inodes := Function.update fs.inodes i { fs.inodes i with used := 0 } })

/-- Each seed is written when its image could be built; a failed one is skipped. -/
def fsSeedExecs (fs : Fs) : Fs :=
  seedExecs.foldl (fun fs f => if f.2 ≠ [] then (fsSeedExecFile f.1 f.2 fs).2 else fs) fs

/-! ## Mounting -/

/-- `fs_init` from `fs_online = 1` on. -/
def fsMount (fs : Fs) : Fs :=
  let fs := fsSeedExecs { fs with online := true }
  (fsFlushSuperblock (fsFlushInodes fs).2).2

def fsInit (fs : Fs) : Fs :=
  let fs := { fs with ata := ataInit fs.ata, online := false }
  if !ataIsReady fs.ata then fs
  else match fsLoad fs with
    | (loaded, fs) =>
      if !loaded || fs.superblock.magic != fsMagic || fs.superblock.version != fsVersion then
        match fsFormat fs with
        | (false, fs) => fs
        | (true, fs) =>
          match fsLoad fs with
          | (false, fs) => fs
          | (true, fs) => fsMount fs
      else fsMount fs

/-- A boot: the module's statics are clear and `fs_init` runs over the drive. -/
def fsBoot (ata : Ata) : Fs :=
  fsInit { superblock := Superblock.zero, inodes := fun _ => Inode.zero, online := false, ata }

/-! ## Sessions -/

/-- The inode of a stored session. -/
def sessionInode (n : Inode) (s : Superblock) (bytes sectors : UInt32)
    (info : Option TraceSessionInfo) : Inode :=
  { n with
    type := inodeTypeTrace
    sessionId := s.nextSessionId
    sizeBytes := bytes
    profileId := (info.map (·.profileId)).getD 0
    startLba := s.nextFreeLba
    sectorCount := sectors
    createdTicks := (info.map (·.startTicks)).getD 0
    durationTicks := (info.map (·.durationTicks)).getD 0
    eventCount := (info.map (·.eventCount.toUInt64)).getD
      (bytes / UInt32.ofNat traceEventSize).toUInt64
    sequenceHash := (info.map (·.sequenceHash)).getD 0 }

/-- The id of the stored session, or `none` for -1. -/
def fsWriteTraceSession (data : List UInt8) (info : Option TraceSessionInfo) (fs : Fs) :
    Option UInt32 × Fs :=
  let bytes := UInt32.ofNat data.length
  let sectors := fsSectorsFor bytes
  if !fs.online then (none, fs)
  else if fsNoSpace fs.superblock sectors then (none, fs)
  else match fsAllocInode fs.inodes with
    | none => (none, fs)
    | some (i, t) =>
      match fsWriteSectors data bytes fs.superblock.nextFreeLba sectors.toNat 0 fs.ata with
      | (false, ata) =>
        (none, { fs with inodes := Function.update t i { t i with used := 0 }, ata })
      | (true, ata) =>
        let fs := { fs with
          inodes := Function.update t i (sessionInode (t i) fs.superblock bytes sectors info)
          superblock := { fs.superblock with
            nextSessionId := fs.superblock.nextSessionId + 1
            nextFreeLba := fs.superblock.nextFreeLba + sectors }
          ata }
        match fsFlushInodes fs with
        | (false, fs) => (none, fs)
        | (true, fs) =>
          match fsFlushSuperblock fs with
          | (false, fs) => (none, fs)
          | (true, fs) => (some (fs.inodes i).sessionId, fs)

/-- The sector loop of `fs_read_trace_session` and `fs_read_exec_file`, from round `i` on. -/
def fsReadSectors {cap : Nat} (n : Inode) :
    Nat → UInt32 → Buffer cap → Ata → Except Overrun (Bool × Buffer cap × Ata)
  | 0, _, buf, ata => .ok (true, buf, ata)
  | todo + 1, i, buf, ata =>
    let offset := i * 512
    let chunk := n.sizeBytes - offset
    let chunk := if chunk > 512 then 512 else chunk
    match ataRead28 (n.startLba + i) 1 ata with
    | (true, s :: _, ata) => do
      let buf ← buf.copyInto offset.toNat (s.bytes.take chunk.toNat)
      fsReadSectors n todo (i + 1) buf ata
    | (_, _, ata) => .ok (false, buf, ata)

/-- The stored size (`none` for -1), the caller's buffer, and the filesystem. -/
def fsReadInode {cap : Nat} (i : Option (Fin fsMaxInodes)) (buf : Buffer cap) (fs : Fs) :
    Except Overrun (Option UInt32 × Buffer cap × Fs) :=
  match fs.online, i with
  | true, some i => do
    let (ok, buf, ata) ← fsReadSectors (fs.inodes i) (fs.inodes i).sectorCount.toNat 0 buf fs.ata
    .ok (if ok then some (fs.inodes i).sizeBytes else none, buf, { fs with ata })
  | _, _ => .ok (none, buf, fs)

def fsReadTraceSession {cap : Nat} (sessionId : UInt32) (buf : Buffer cap) (fs : Fs) :
    Except Overrun (Option UInt32 × Buffer cap × Fs) :=
  fsReadInode (fsFindSession fs.inodes sessionId) buf fs

def fsReadExecFile {cap : Nat} (path : List UInt8) (buf : Buffer cap) (fs : Fs) :
    Except Overrun (Option UInt32 × Buffer cap × Fs) :=
  fsReadInode (fsFindExec fs.inodes path) buf fs

def fsGetTraceSessionInfo (sessionId : UInt32) (fs : Fs) : Option TraceSessionInfo :=
  match fs.online, fsFindSession fs.inodes sessionId with
  | true, some i =>
    let n := fs.inodes i
    some {
      sessionId := n.sessionId
      sizeBytes := n.sizeBytes
      eventCount := n.eventCount.toUInt32
      profileId := n.profileId
      startTicks := n.createdTicks
      durationTicks := n.durationTicks
      sequenceHash := n.sequenceHash }
  | _, _ => none

structure FsTraceFileInfo where
  sessionId : UInt32
  sizeBytes : UInt32
  profileId : UInt32
  eventCount : UInt64
  durationTicks : UInt64
deriving DecidableEq, Repr

def fsSnapshotTraces (fs : Fs) (maxEntries : Nat) : List FsTraceFileInfo :=
  (((List.finRange fsMaxInodes).filter fun i => (fs.inodes i).isTrace).take maxEntries).map
    fun i =>
      let n := fs.inodes i
      ⟨n.sessionId, n.sizeBytes, n.profileId, n.eventCount, n.durationTicks⟩

/-- The lines of `fs_list_traces`: id, size and event count of each session; `none` is
    "/trace unavailable". -/
def fsListTraces (fs : Fs) : Option (List (UInt32 × UInt32 × UInt64)) :=
  if !fs.online then none
  else some (((List.finRange fsMaxInodes).filter fun i => (fs.inodes i).isTrace).map fun i =>
    ((fs.inodes i).sessionId, (fs.inodes i).sizeBytes, (fs.inodes i).eventCount))

/-- `struct trace_event buf[128]`. -/
abbrev TraceviewBuffer := Buffer (128 * traceEventSize)

/-- What `traceview` prints: the session's event count and at most sixteen events. `stack`
    is what its buffer happens to hold. -/
def fsTraceview (sessionId : UInt32) (stack : Nat → UInt8) (fs : Fs) :
    Except Overrun (Option (UInt32 × Option TraceSessionInfo × List TraceEvent) × Fs) := do
  let (bytes, buf, fs) ← fsReadTraceSession sessionId (⟨stack⟩ : TraceviewBuffer) fs
  match bytes with
  | none => .ok (none, fs)
  | some bytes =>
    let count := bytes / UInt32.ofNat traceEventSize
    let shown := (List.range (min count.toNat 16)).map (eventAt buf)
    .ok (some (count, fsGetTraceSessionInfo sessionId fs, shown), fs)

end Kernel
end BumbelBee
