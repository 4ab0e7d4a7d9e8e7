import BumbelBee.Kernel.Ata
import Mathlib.Data.List.FinRange
import Mathlib.Tactic.IntervalCases

/-!
# The on-disk format of the trace filesystem (`kernel/fs.c`)

One superblock sector, eight sectors of inodes (four 128-byte inodes each), then the data
area. `fs_load` and `fs_flush_*` move these structures as raw memory, so both are laid out
here byte by byte and the table is read back sector by sector: a transfer that stops half
way leaves the inodes of the sectors behind it as they were.

The fields have the order and the widths of the C structures, in which none needs padding: the
widths of a superblock's add up to a sector. What `reserved` holds is kept, as the code keeps it.
-/

namespace BumbelBee
namespace Kernel

open Lib

def fsMagic : UInt32 := 0x43445836
def fsVersion : UInt32 := 3
def fsStartLba : UInt32 := 2048
def fsTotalSectors : UInt32 := 4096
def fsInodeSectors : Nat := 8
def fsDataStartLba : UInt32 := fsStartLba + 1 + UInt32.ofNat fsInodeSectors
def fsMaxInodes : Nat := 32

def inodeTypeTrace : UInt32 := 1
def inodeTypeExec : UInt32 := 2

structure Superblock where
  magic : UInt32
  version : UInt32
  totalSectors : UInt32
  inodeCount : UInt32
  inodeTableLba : UInt32
  dataStartLba : UInt32
  nextFreeLba : UInt32
  nextSessionId : UInt32
  reserved : Block 480
deriving DecidableEq

structure Inode where
  used : UInt32
  type : UInt32
  sessionId : UInt32
  sizeBytes : UInt32
  profileId : UInt32
  startLba : UInt32
  sectorCount : UInt32
  createdTicks : UInt64
  durationTicks : UInt64
  eventCount : UInt64
  sequenceHash : UInt64
  name : Block 24
  reserved : Block 44
deriving DecidableEq

abbrev InodeTable := Fin fsMaxInodes → Inode

/-- `memset(&superblock, 0, sizeof(superblock))`. -/
def Superblock.zero : Superblock := ⟨0, 0, 0, 0, 0, 0, 0, 0, Block.zero 480⟩

/-- `memset(&inodes[i], 0, sizeof(inodes[i]))`. -/
def Inode.zero : Inode := ⟨0, 0, 0, 0, 0, 0, 0, 0, 0, 0, 0, Block.zero 24, Block.zero 44⟩

/-- `inodes[i].used && inodes[i].type == INODE_TYPE_TRACE`. -/
def Inode.isTrace (n : Inode) : Bool := n.used != 0 && n.type == inodeTypeTrace

def Inode.isExec (n : Inode) : Bool := n.used != 0 && n.type == inodeTypeExec

/-! ## Superblock sector -/

def encodeSuperblock (s : Superblock) : Sector :=
  ⟨putU32 s.magic ++ putU32 s.version ++ putU32 s.totalSectors ++ putU32 s.inodeCount ++
    putU32 s.inodeTableLba ++ putU32 s.dataStartLba ++ putU32 s.nextFreeLba ++
    putU32 s.nextSessionId ++ s.reserved.bytes, by simp⟩

def decodeSuperblock (s : Sector) : Superblock :=
  let (magic, bs) := takeU32 s.bytes
  let (version, bs) := takeU32 bs
  let (totalSectors, bs) := takeU32 bs
  let (inodeCount, bs) := takeU32 bs
  let (inodeTableLba, bs) := takeU32 bs
  let (dataStartLba, bs) := takeU32 bs
  let (nextFreeLba, bs) := takeU32 bs
  let (nextSessionId, bs) := takeU32 bs
  let (reserved, _) := takeBlock 480 bs
  { magic, version, totalSectors, inodeCount, inodeTableLba, dataStartLba, nextFreeLba,
    nextSessionId, reserved }

@[simp] theorem decodeSuperblock_encode (s : Superblock) :
    decodeSuperblock (encodeSuperblock s) = s := by
  have hlast := takeBlock_put s.reserved []
  rw [List.append_nil] at hlast
  simp [decodeSuperblock, encodeSuperblock, List.append_assoc, hlast]

/-! ## Inodes, four to a sector -/

def encodeInode (n : Inode) : List UInt8 :=
  putU32 n.used ++ putU32 n.type ++ putU32 n.sessionId ++ putU32 n.sizeBytes ++
    putU32 n.profileId ++ putU32 n.startLba ++ putU32 n.sectorCount ++ putU64 n.createdTicks ++
    putU64 n.durationTicks ++ putU64 n.eventCount ++ putU64 n.sequenceHash ++ n.name.bytes ++
    n.reserved.bytes

def decodeInode (bs : List UInt8) : Inode :=
  let (used, bs) := takeU32 bs
  let (type, bs) := takeU32 bs
  let (sessionId, bs) := takeU32 bs
  let (sizeBytes, bs) := takeU32 bs
  let (profileId, bs) := takeU32 bs
  let (startLba, bs) := takeU32 bs
  let (sectorCount, bs) := takeU32 bs
  let (createdTicks, bs) := takeU64 bs
  let (durationTicks, bs) := takeU64 bs
  let (eventCount, bs) := takeU64 bs
  let (sequenceHash, bs) := takeU64 bs
  let (name, bs) := takeBlock 24 bs
  let (reserved, _) := takeBlock 44 bs
  { used, type, sessionId, sizeBytes, profileId, startLba, sectorCount, createdTicks,
    durationTicks, eventCount, sequenceHash, name, reserved }

@[simp] theorem length_encodeInode (n : Inode) : (encodeInode n).length = 128 := by
  simp [encodeInode]

@[simp] theorem decodeInode_encode (n : Inode) (rest : List UInt8) :
    decodeInode (encodeInode n ++ rest) = n := by
  simp [decodeInode, encodeInode, List.append_assoc]

/-- The sector of the table an inode lives in, and its place there. -/
def inodeSector (i : Fin fsMaxInodes) : Fin fsInodeSectors :=
  ⟨i / 4, by have := i.isLt; unfold fsMaxInodes fsInodeSectors at *; omega⟩

/-- The `j`-th inode of a sector of the table. -/
def inodeIn (s : Sector) (j : Nat) : Inode := decodeInode (s.bytes.drop (128 * j))

/-- The number of the `j`-th inode of sector `s`. -/
def inodeSlot (s : Fin fsInodeSectors) (j : Fin 4) : Fin fsMaxInodes :=
  ⟨4 * s + j, by have := s.isLt; have := j.isLt; unfold fsMaxInodes fsInodeSectors at *; omega⟩

/-- The table's `s`-th sector. -/
def tableSector (t : InodeTable) (s : Fin fsInodeSectors) : Sector :=
  ⟨(List.finRange 4).flatMap fun j => encodeInode (t (inodeSlot s j)),
    by simp [List.length_flatMap]⟩

/-- The table as the eight sectors `fs_flush_inodes` writes. -/
def encodeTable (t : InodeTable) : List Sector := (List.finRange fsInodeSectors).map (tableSector t)

@[simp] theorem length_encodeTable (t : InodeTable) : (encodeTable t).length = 8 := by
  simp only [encodeTable, List.length_map, List.length_finRange]; rfl

theorem getElem_encodeTable (t : InodeTable) (s : Fin fsInodeSectors)
    (hs : s.val < (encodeTable t).length) : (encodeTable t)[s.val] = tableSector t s := by
  simp [encodeTable]

/-- An inode is where its number says. -/
theorem inodeIn_tableSector (t : InodeTable) (i : Fin fsMaxInodes) :
    inodeIn (tableSector t (inodeSector i)) (i % 4) = t i := by
  have hrange : (List.finRange 4) = [0, 1, 2, 3] := by decide
  have hi : ∀ j : Fin 4, i.val % 4 = j → inodeSlot (inodeSector i) j = i := by
    intro j hj
    ext
    simp only [inodeSlot, inodeSector]
    omega
  have hlt : i.val % 4 < 4 := Nat.mod_lt _ (by decide)
  simp only [inodeIn, tableSector, hrange, List.flatMap_cons, List.flatMap_nil, List.append_nil]
  obtain ⟨m, hm⟩ : ∃ m, i.val % 4 = m := ⟨_, rfl⟩
  rw [hm] at hlt hi ⊢
  interval_cases m
  · rw [hi 0 rfl]
    simp
  · rw [hi 1 rfl, List.drop_left' (by simp)]
    simp
  · rw [hi 2 rfl, ← List.append_assoc, List.drop_left' (by simp)]
    simp
  · rw [hi 3 rfl, ← List.append_assoc, ← List.append_assoc, List.drop_left' (by simp)]
    rw [← List.append_nil (encodeInode _), decodeInode_encode]

/-- Reading sectors over a table in memory: an inode is replaced when its sector came in. -/
def loadInodes (ss : List Sector) (t : InodeTable) : InodeTable := fun i =>
  match ss[(inodeSector i).val]? with
  | some s => inodeIn s (i % 4)
  | none => t i

@[simp] theorem loadInodes_encodeTable (t u : InodeTable) : loadInodes (encodeTable t) u = t := by
  funext i
  have hlt : (inodeSector i).val < (encodeTable t).length := by
    simpa [fsInodeSectors] using (inodeSector i).isLt
  simp only [loadInodes, List.getElem?_eq_getElem hlt, getElem_encodeTable]
  exact inodeIn_tableSector t i

/-! ## The tables on a medium -/

/-- The superblock a medium carries. -/
def diskSuperblock (d : Nat → Sector) : Superblock := decodeSuperblock (d fsStartLba.toNat)

/-- The inode table a medium carries. -/
def diskInodes (d : Nat → Sector) : InodeTable := fun i =>
  inodeIn (d (fsStartLba.toNat + 1 + inodeSector i)) (i % 4)

theorem loadInodes_readSpan (d : Nat → Sector) (t : InodeTable) :
    loadInodes (readSpan d (fsStartLba.toNat + 1) fsInodeSectors) t = diskInodes d := by
  funext i
  have hlt : (inodeSector i).val < (readSpan d (fsStartLba.toNat + 1) fsInodeSectors).length := by
    simp
  simp only [loadInodes, List.getElem?_eq_getElem hlt, diskInodes]
  simp [readSpan]

/-- Writes elsewhere leave the superblock on the medium. -/
theorem diskSuperblock_frame {ws : List (Nat × Sector)} (h : ∀ w ∈ ws, w.1 ≠ fsStartLba.toNat)
    (d : Nat → Sector) : diskSuperblock (applyWrites ws d) = diskSuperblock d := by
  rw [diskSuperblock, applyWrites_frame h, diskSuperblock]

/-- Writes elsewhere leave the inode table on the medium. -/
theorem diskInodes_frame {ws : List (Nat × Sector)}
    (h : ∀ w ∈ ws, w.1 < fsStartLba.toNat + 1 ∨ fsDataStartLba.toNat ≤ w.1) (d : Nat → Sector) :
    diskInodes (applyWrites ws d) = diskInodes d := by
  funext i
  rw [diskInodes, applyWrites_frame (fun w hw => ?_), diskInodes]
  have hi := (inodeSector i).isLt
  have hstop : fsDataStartLba.toNat = fsStartLba.toNat + 1 + fsInodeSectors := by decide
  have := h w hw
  omega

@[simp] theorem diskSuperblock_flush (s : Superblock) (d : Nat → Sector) :
    diskSuperblock (applyWrites (span fsStartLba.toNat [encodeSuperblock s]) d) = s := by
  simp [diskSuperblock, span, applyWrites]

/-- A flush of the table that stopped after `k` sectors: the inodes of those sectors are the
    new ones, the others what they were. -/
theorem diskInodes_flush_take (t : InodeTable) (k : Nat) (d : Nat → Sector)
    (i : Fin fsMaxInodes) :
    diskInodes (applyWrites (span (fsStartLba.toNat + 1) ((encodeTable t).take k)) d) i =
      if (inodeSector i).val < k then t i else diskInodes d i := by
  have hsec : (inodeSector i).val < 8 := (inodeSector i).isLt
  have hlen : ((encodeTable t).take k).length = min k 8 := by simp
  rw [diskInodes]
  split
  · rw [applyWrites_span (by omega), List.getElem_take, getElem_encodeTable]
    exact inodeIn_tableSector t i
  · rw [applyWrites_span_out (Or.inr (by omega)), diskInodes]

@[simp] theorem diskInodes_flush (t : InodeTable) (d : Nat → Sector) :
    diskInodes (applyWrites (span (fsStartLba.toNat + 1) (encodeTable t)) d) = t := by
  funext i
  have hsec : (inodeSector i).val < 8 := (inodeSector i).isLt
  have h := diskInodes_flush_take t 8 d i
  rwa [List.take_of_length_le (by simp), if_pos hsec] at h

end Kernel
end BumbelBee
