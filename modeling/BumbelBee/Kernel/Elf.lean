import BumbelBee.Lib.Bytes

/-!
# The ELF reader (`kernel/elf.c`)

The image is memory, addressed from its first byte on: the reader is handed a size and
follows offsets found in the image itself.
-/

namespace BumbelBee
namespace Kernel

open Lib

/-- What stands at each offset from the start of an image. -/
abbrev ImageMem := UInt64 → UInt8

/-- The bytes of an image, with what lies around it. -/
def imageMem (image : List UInt8) (around : ImageMem) : ImageMem := fun offset =>
  if offset.toNat < image.length then image.getD offset.toNat 0 else around offset

/-- The `n` bytes at an offset, as a number. -/
def ImageMem.field (mem : ImageMem) (offset : UInt64) (n : Nat) : UInt64 :=
  UInt64.ofNat (leDecode ((List.range n).map fun i => mem (offset + UInt64.ofNat i)))

def elfMachineX8664 : UInt64 := 62

def sizeofEhdr : UInt64 := 64
def sizeofPhdr : UInt64 := 56

/-- `struct elf_info`. -/
structure ElfInfo where
  type : UInt16
  machine : UInt16
  phnum : UInt16
  entry : UInt64
  firstVaddr : UInt64
  lastVaddr : UInt64
  loadOffset : UInt64
  loadFilesz : UInt64
  loadMemsz : UInt64
deriving DecidableEq, Repr

/-- The fields of a program header that are looked at. -/
structure ElfPhdr where
  type : UInt64
  offset : UInt64
  vaddr : UInt64
  filesz : UInt64
  memsz : UInt64

/-- `phdr[i]` of the table at `phoff`. -/
def ImageMem.phdr (mem : ImageMem) (phoff : UInt64) (i : Nat) : ElfPhdr :=
  let base := phoff + sizeofPhdr * UInt64.ofNat i
  { type := mem.field base 4
    offset := mem.field (base + 8) 8
    vaddr := mem.field (base + 16) 8
    filesz := mem.field (base + 32) 8
    memsz := mem.field (base + 40) 8 }

/-- The first loop: the lowest and the highest address of the loaded segments. -/
def elfExtent (phdrs : List ElfPhdr) : UInt64 × UInt64 :=
  phdrs.foldl (fun (extent : UInt64 × UInt64) (p : ElfPhdr) =>
    let (firstVaddr, lastVaddr) := extent
    if p.type ≠ 1 then extent
    else
      (if firstVaddr = 0 ∨ p.vaddr < firstVaddr then p.vaddr else firstVaddr,
        if p.vaddr + p.memsz > lastVaddr then p.vaddr + p.memsz else lastVaddr)) (0, 0)

/-- `elf_parse_image`; `none` for -1. -/
def elfParseImage (mem : ImageMem) (size : UInt64) : Option ElfInfo :=
  let phoff := mem.field 32 8
  let phnum := (mem.field 56 2).toUInt16
  if size < sizeofEhdr then none
  else if mem 0 ≠ 0x7f ∨ mem 1 ≠ 0x45 ∨ mem 2 ≠ 0x4c ∨ mem 3 ≠ 0x46 then none
  else if mem 4 ≠ 2 ∨ mem 5 ≠ 1 then none
  else if mem.field 18 2 ≠ elfMachineX8664 ∨ mem.field 54 2 ≠ sizeofPhdr then none
  else if phoff + phnum.toUInt64 * sizeofPhdr > size then none
  else
    let phdrs := (List.range phnum.toNat).map (mem.phdr phoff)
    let (firstVaddr, lastVaddr) := elfExtent phdrs
    -- the segment that starts lowest; nothing is loaded when there is none
    let load := if firstVaddr = 0 then none
      else phdrs.find? fun p => p.type == 1 && p.vaddr == firstVaddr
    some {
      type := (mem.field 16 2).toUInt16
      machine := (mem.field 18 2).toUInt16
      phnum := phnum
      entry := mem.field 24 8
      firstVaddr := firstVaddr
      lastVaddr := lastVaddr
      loadOffset := (load.map ElfPhdr.offset).getD 0
      loadFilesz := (load.map ElfPhdr.filesz).getD 0
      loadMemsz := (load.map ElfPhdr.memsz).getD 0 }

end Kernel
end BumbelBee
