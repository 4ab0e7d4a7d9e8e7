import BumbelBee.Lib.Bytes

/-!
# The executables `fs_init` seeds (`kernel/fs.c`)

`build_ring3demo_image` and `build_stub_exec_image` assemble one ELF64 header, one program
header and a few bytes of code. Both are given the size of the caller's buffer and answer
an empty image when it does not fit.
-/

namespace BumbelBee
namespace Kernel

open Lib

/-- The bytes of a C string literal, without its terminator. -/
def cstr (s : String) : List UInt8 := s.toList.map fun c => UInt8.ofNat c.toNat

def aspaceUserBase : UInt64 := 0x40000000

structure ExecElf64Ehdr where
  ident : Block 16
  type : UInt16
  machine : UInt16
  version : UInt32
  entry : UInt64
  phoff : UInt64
  shoff : UInt64
  flags : UInt32
  ehsize : UInt16
  phentsize : UInt16
  phnum : UInt16
  shentsize : UInt16
  shnum : UInt16
  shstrndx : UInt16

structure ExecElf64Phdr where
  type : UInt32
  flags : UInt32
  offset : UInt64
  vaddr : UInt64
  paddr : UInt64
  filesz : UInt64
  memsz : UInt64
  align : UInt64

def encodeEhdr (h : ExecElf64Ehdr) : List UInt8 :=
  h.ident.bytes ++ putU16 h.type ++ putU16 h.machine ++ putU32 h.version ++ putU64 h.entry ++
    putU64 h.phoff ++ putU64 h.shoff ++ putU32 h.flags ++ putU16 h.ehsize ++
    putU16 h.phentsize ++ putU16 h.phnum ++ putU16 h.shentsize ++ putU16 h.shnum ++
    putU16 h.shstrndx

def encodePhdr (h : ExecElf64Phdr) : List UInt8 :=
  putU32 h.type ++ putU32 h.flags ++ putU64 h.offset ++ putU64 h.vaddr ++ putU64 h.paddr ++
    putU64 h.filesz ++ putU64 h.memsz ++ putU64 h.align

@[simp] theorem length_encodeEhdr (h : ExecElf64Ehdr) : (encodeEhdr h).length = 64 := by
  simp [encodeEhdr]

@[simp] theorem length_encodePhdr (h : ExecElf64Phdr) : (encodePhdr h).length = 56 := by
  simp [encodePhdr]

def ring3demoCode : List UInt8 := [
  0x66, 0xb8, 0x33, 0x00, 0x8e, 0xd8, 0x8e, 0xc0, 0x8e, 0xe0, 0x8e, 0xe8,
  0xb8, 0x01, 0x00, 0x00, 0x00, 0x48, 0x8d, 0x1d, 0x11, 0x00, 0x00, 0x00,
  0xb9, 0x21, 0x00, 0x00, 0x00, 0xcd, 0x80, 0xb8, 0x03, 0x00, 0x00, 0x00,
  0xcd, 0x80, 0xf4, 0xeb, 0xfd, 0x72, 0x69, 0x6e, 0x67, 0x33, 0x20, 0x66,
  0x69, 0x6c, 0x65, 0x2d, 0x62, 0x61, 0x63, 0x6b, 0x65, 0x64, 0x20, 0x65,
  0x6c, 0x66, 0x20, 0x73, 0x61, 0x79, 0x73, 0x20, 0x68, 0x65, 0x6c, 0x6c,
  0x6f, 0x0a]

def stubExecCode : List UInt8 := [0xf4, 0xeb, 0xfd]

/-- The header both builders fill in: everything but the entry point is fixed. -/
def execEhdr (entry : UInt64) : ExecElf64Ehdr where
  ident := Block.pad 16 [0x7f, 0x45, 0x4c, 0x46, 2, 1, 1]
  type := 2
  machine := 62
  version := 1
  entry := entry
  phoff := 64
  shoff := 0
  flags := 0
  ehsize := 64
  phentsize := 56
  phnum := 1
  shentsize := 0
  shnum := 0
  shstrndx := 0

/-- The one segment: the whole file at `vaddr`. -/
def execPhdr (vaddr : UInt64) (size : Nat) : ExecElf64Phdr where
  type := 1
  flags := 5
  offset := 0
  vaddr := vaddr
  paddr := vaddr
  filesz := UInt64.ofNat size
  memsz := UInt64.ofNat size
  align := 0x1000

def buildRing3demoImage (cap : Nat) : List UInt8 :=
  let codeOff := 64 + 56
  if cap < codeOff + ring3demoCode.length then []
  else encodeEhdr (execEhdr (aspaceUserBase + UInt64.ofNat codeOff)) ++
    encodePhdr (execPhdr aspaceUserBase (codeOff + ring3demoCode.length)) ++ ring3demoCode

def buildStubExecImage (cap : Nat) (entry : UInt64) : List UInt8 :=
  let codeOff := 64 + 56
  if cap < codeOff + stubExecCode.length then []
  else encodeEhdr (execEhdr entry) ++
    encodePhdr (execPhdr 0x401000 (codeOff + stubExecCode.length)) ++ stubExecCode

/-- Neither builder ever overfills the buffer it was given the size of. -/
theorem length_buildRing3demoImage_le (cap : Nat) : (buildRing3demoImage cap).length ≤ cap := by
  simp only [buildRing3demoImage]
  split
  · simp
  · rename_i h
    simp only [List.length_append, length_encodeEhdr, length_encodePhdr] at *
    omega

theorem length_buildStubExecImage_le (cap : Nat) (entry : UInt64) :
    (buildStubExecImage cap entry).length ≤ cap := by
  simp only [buildStubExecImage]
  split
  · simp
  · rename_i h
    simp only [List.length_append, length_encodeEhdr, length_encodePhdr] at *
    omega

/-- The files seeded under `/bin`, in order, built in the buffers `fs_seed_execs` keeps. -/
def seedExecs : List (List UInt8 × List UInt8) := [
  (cstr "/bin/ring3demo", buildRing3demoImage 256),
  (cstr "/bin/ping", buildStubExecImage 128 0x401000),
  (cstr "/bin/ps", buildStubExecImage 128 0x401080),
  (cstr "/bin/netstat", buildStubExecImage 128 0x4010c0)]

/-- No seeded image is longer than 256 bytes. -/
theorem seedExecs_length {f : List UInt8 × List UInt8} (h : f ∈ seedExecs) :
    f.2.length ≤ 256 := by
  simp only [seedExecs, List.mem_cons, List.not_mem_nil, or_false] at h
  rcases h with rfl | rfl | rfl | rfl
  · exact length_buildRing3demoImage_le 256
  all_goals exact Nat.le_trans (length_buildStubExecImage_le 128 _) (by decide)

end Kernel
end BumbelBee
