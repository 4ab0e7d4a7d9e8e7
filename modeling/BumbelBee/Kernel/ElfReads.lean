import BumbelBee.Kernel.Elf
import BumbelBee.Lib.Reads

/-!
# What `elf_parse_image` looks at (`kernel/elf.c`)

The same function with its reads: every header field it inspects is so many bytes at an
offset from the start of the image, and a test that is not reached reads nothing. The answer
is `elfParseImage` (`elfParseReads_value`).

A read that is not made is as much part of the function as one that is: the checks of the magic
number stop at the first byte that is wrong, and no offset is followed that a test before it has
refused. For this `Reads` is threaded through every test in the source's order.
-/

namespace BumbelBee
namespace Kernel

open Lib

variable (mem : ImageMem)

/-- The `n` bytes at an offset, read as a number. -/
def readField (offset : UInt64) (n : Nat) : Reads UInt64 UInt64 :=
  ⟨mem.field offset n, (List.range n).map fun i => offset + UInt64.ofNat i⟩

/-- Bytes compared one after the other, up to the first that differs. -/
def readIdent : List (UInt64 × UInt8) → Reads UInt64 Bool
  | [] => pure true
  | (offset, byte) :: rest => do
    let found ← (⟨mem offset, [offset]⟩ : Reads UInt64 UInt8)
    if found ≠ byte then pure false else readIdent rest

/-- `ident`: the magic number, the class and the byte order. -/
def elfIdent : List (UInt64 × UInt8) :=
  [(0, 0x7f), (1, 0x45), (2, 0x4c), (3, 0x46), (4, 2), (5, 1)]

/-- Where `phdr[i]` starts. -/
def phdrOffset (phoff : UInt64) (i : Nat) : UInt64 := phoff + sizeofPhdr * UInt64.ofNat i

/-- The `load_` fields: where a segment stands in the file and how long it is. -/
def readPlace (base : UInt64) : Reads UInt64 (UInt64 × UInt64 × UInt64) := do
  let offset ← readField mem (base + 8) 8
  let filesz ← readField mem (base + 32) 8
  let memsz ← readField mem (base + 40) 8
  pure (offset, filesz, memsz)

/-- The lower bound, after a look at one more segment. What is noted here of its place is
    cleared by the `memset` behind the loop, so only the reads are left of it. -/
def readLowest (base firstVaddr vaddr : UInt64) : Reads UInt64 UInt64 :=
  if firstVaddr = 0 ∨ vaddr < firstVaddr then do
    let _ ← readPlace mem base
    pure vaddr
  else pure firstVaddr

/-- One round of the first loop. -/
def readExtent (phoff : UInt64) (extent : UInt64 × UInt64) (i : Nat) :
    Reads UInt64 (UInt64 × UInt64) := do
  let base := phdrOffset phoff i
  let type ← readField mem base 4
  if type ≠ 1 then pure extent
  else do
    let vaddr ← readField mem (base + 16) 8
    let firstVaddr ← readLowest mem base extent.1 vaddr
    let memsz ← readField mem (base + 40) 8
    pure (firstVaddr, if vaddr + memsz > extent.2 then vaddr + memsz else extent.2)

/-- The second loop, which stops at the first segment that starts at `firstVaddr`. -/
def readLoad (phoff firstVaddr : UInt64) : List Nat → Reads UInt64 (UInt64 × UInt64 × UInt64)
  | [] => pure (0, 0, 0)
  | i :: rest => do
    let base := phdrOffset phoff i
    let type ← readField mem base 4
    if type ≠ 1 then readLoad phoff firstVaddr rest
    else do
      let vaddr ← readField mem (base + 16) 8
      if vaddr ≠ firstVaddr then readLoad phoff firstVaddr rest
      else readPlace mem base

/-- What follows the checks: the two loops, and the fields copied out between them. -/
def readSegments (phoff : UInt64) (phnum : UInt16) : Reads UInt64 ElfInfo := do
  let extent ← (List.range phnum.toNat).foldlM (readExtent mem phoff) (0, 0)
  let type ← readField mem 16 2
  let machine ← readField mem 18 2
  let entry ← readField mem 24 8
  let load ← readLoad mem phoff extent.1 (if extent.1 = 0 then [] else List.range phnum.toNat)
  pure {
    type := type.toUInt16
    machine := machine.toUInt16
    phnum := phnum
    entry := entry
    firstVaddr := extent.1
    lastVaddr := extent.2
    loadOffset := load.1
    loadFilesz := load.2.1
    loadMemsz := load.2.2 }

/-- `elf_parse_image` with its reads. -/
def elfParseReads (size : UInt64) : Reads UInt64 (Option ElfInfo) :=
  if size < sizeofEhdr then pure none
  else do
    let ident ← readIdent mem elfIdent
    if ident = false then pure none
    else do
      let machine ← readField mem 18 2
      if machine ≠ elfMachineX8664 then pure none
      else do
        let phentsize ← readField mem 54 2
        if phentsize ≠ sizeofPhdr then pure none
        else do
          let phoff ← readField mem 32 8
          let phnum ← readField mem 56 2
          if phoff + phnum.toUInt16.toUInt64 * sizeofPhdr > size then pure none
          else do
            let info ← readSegments mem phoff phnum.toUInt16
            pure (some info)

/-! ## The answer -/

variable {mem}

@[simp] theorem readField_value (offset : UInt64) (n : Nat) :
    (readField mem offset n).value = mem.field offset n := rfl

theorem readIdent_value (bytes : List (UInt64 × UInt8)) :
    (readIdent mem bytes).value = bytes.all fun e => mem e.1 == e.2 := by
  induction bytes with
  | nil => rfl
  | cons e rest ih =>
    simp only [readIdent, Reads.value_bind, Reads.value_ite, Reads.value_pure, ih, List.all_cons]
    by_cases h : mem e.1 = e.2
    · simp [h]
    · simp [h]

theorem readPlace_value (phoff : UInt64) (i : Nat) :
    (readPlace mem (phdrOffset phoff i)).value =
      ((mem.phdr phoff i).offset, (mem.phdr phoff i).filesz, (mem.phdr phoff i).memsz) := rfl

theorem readLowest_value (base firstVaddr vaddr : UInt64) :
    (readLowest mem base firstVaddr vaddr).value =
      if firstVaddr = 0 ∨ vaddr < firstVaddr then vaddr else firstVaddr := by
  rw [readLowest, Reads.value_ite, Reads.value_bind, Reads.value_pure, Reads.value_pure]

/-- One header of `elfExtent`. -/
theorem readExtent_value (phoff : UInt64) (extent : UInt64 × UInt64) (i : Nat) :
    (readExtent mem phoff extent i).value =
      if (mem.phdr phoff i).type ≠ 1 then extent
      else
        (if extent.1 = 0 ∨ (mem.phdr phoff i).vaddr < extent.1 then (mem.phdr phoff i).vaddr
          else extent.1,
          if (mem.phdr phoff i).vaddr + (mem.phdr phoff i).memsz > extent.2 then
            (mem.phdr phoff i).vaddr + (mem.phdr phoff i).memsz else extent.2) := by
  simp only [readExtent, Reads.value_bind, Reads.value_ite, readLowest_value]
  rfl

/-- The second loop finds the segment that `elfParseImage` finds. -/
theorem readLoad_value (phoff firstVaddr : UInt64) (is : List Nat) :
    (readLoad mem phoff firstVaddr is).value =
      (((is.map (mem.phdr phoff)).find? fun p => p.type == 1 && p.vaddr == firstVaddr).map
        fun p => (p.offset, p.filesz, p.memsz)).getD (0, 0, 0) := by
  induction is with
  | nil => rfl
  | cons i rest ih =>
    rw [readLoad, List.map_cons, List.find?_cons, Reads.value_bind, Reads.value_ite,
      Reads.value_bind, Reads.value_ite, readPlace_value, ih]
    have htype : (readField mem (phdrOffset phoff i) 4).value = (mem.phdr phoff i).type := rfl
    have hvaddr : (readField mem (phdrOffset phoff i + 16) 8).value = (mem.phdr phoff i).vaddr := rfl
    rw [htype, hvaddr]
    by_cases ht : (mem.phdr phoff i).type = 1
    · rw [if_neg (not_not.mpr ht)]
      by_cases hv : (mem.phdr phoff i).vaddr = firstVaddr
      · rw [if_neg (not_not.mpr hv), ht, hv]
        simp
      · rw [if_pos hv, beq_eq_false_iff_ne.mpr hv, Bool.and_false]
    · rw [if_pos ht, beq_eq_false_iff_ne.mpr ht, Bool.false_and]

/-- The loops and the fields behind them, once an image has passed the checks. -/
theorem readSegments_value (phoff : UInt64) (phnum : UInt16) :
    (readSegments mem phoff phnum).value =
      let phdrs := (List.range phnum.toNat).map (mem.phdr phoff)
      let load := if (elfExtent phdrs).1 = 0 then none
        else phdrs.find? fun p => p.type == 1 && p.vaddr == (elfExtent phdrs).1
      { type := (mem.field 16 2).toUInt16
        machine := (mem.field 18 2).toUInt16
        phnum := phnum
        entry := mem.field 24 8
        firstVaddr := (elfExtent phdrs).1
        lastVaddr := (elfExtent phdrs).2
        loadOffset := (load.map ElfPhdr.offset).getD 0
        loadFilesz := (load.map ElfPhdr.filesz).getD 0
        loadMemsz := (load.map ElfPhdr.memsz).getD 0 } := by
  have hextent : ((List.range phnum.toNat).foldlM (readExtent mem phoff) (0, 0)).value =
      elfExtent ((List.range phnum.toNat).map (mem.phdr phoff)) := by
    rw [Reads.value_foldlM, elfExtent, List.foldl_map]
    exact congrArg (fun f => (List.range phnum.toNat).foldl f (0, 0))
      (funext fun extent => funext fun i => readExtent_value phoff extent i)
  simp only [readSegments, Reads.value_bind, Reads.value_pure, readField_value, hextent,
    readLoad_value]
  by_cases hunset : (elfExtent ((List.range phnum.toNat).map (mem.phdr phoff))).1 = 0
  · rw [if_pos hunset, if_pos hunset]
    rfl
  · rw [if_neg hunset, if_neg hunset]
    cases ((List.range phnum.toNat).map (mem.phdr phoff)).find? fun p =>
        p.type == 1 && p.vaddr == (elfExtent ((List.range phnum.toNat).map (mem.phdr phoff))).1 with
    | none => rfl
    | some p => rfl

/-- The identification the parser asks for. -/
theorem readIdent_elfIdent : (readIdent mem elfIdent).value = false ↔
    (mem 0 ≠ 0x7f ∨ mem 1 ≠ 0x45 ∨ mem 2 ≠ 0x4c ∨ mem 3 ≠ 0x46) ∨ mem 4 ≠ 2 ∨ mem 5 ≠ 1 := by
  rw [readIdent_value]
  simp only [elfIdent, List.all_cons, List.all_nil, Bool.and_true, Bool.and_eq_false_iff,
    beq_eq_false_iff_ne, ne_eq]
  tauto

/-- **The answer is the parser's.** -/
theorem elfParseReads_value (size : UInt64) :
    (elfParseReads mem size).value = elfParseImage mem size := by
  rw [elfParseReads, elfParseImage]
  by_cases hsize : size < sizeofEhdr
  · rw [if_pos hsize, if_pos hsize]
    rfl
  rw [if_neg hsize, if_neg hsize, Reads.value_bind, Reads.value_ite]
  by_cases hident : (readIdent mem elfIdent).value = false
  · rw [if_pos hident, Reads.value_pure]
    rcases readIdent_elfIdent.mp hident with h | h
    · rw [if_pos h]
    · rw [if_pos h, ite_self]
  have hpass := mt readIdent_elfIdent.mpr hident
  rw [if_neg hident, if_neg (fun h => hpass (Or.inl h)), if_neg (fun h => hpass (Or.inr h)),
    Reads.value_bind, Reads.value_ite, readField_value]
  by_cases hmachine : mem.field 18 2 = elfMachineX8664
  swap
  · rw [if_pos hmachine, if_pos (Or.inl hmachine), Reads.value_pure]
  rw [if_neg (not_not.mpr hmachine), Reads.value_bind, Reads.value_ite, readField_value]
  by_cases hphentsize : mem.field 54 2 = sizeofPhdr
  swap
  · rw [if_pos hphentsize, if_pos (Or.inr hphentsize), Reads.value_pure]
  rw [if_neg (not_not.mpr hphentsize), if_neg (not_or.mpr ⟨not_not.mpr hmachine,
    not_not.mpr hphentsize⟩), Reads.value_bind, Reads.value_bind, Reads.value_ite,
    Reads.value_bind, Reads.value_pure, Reads.value_pure, readSegments_value]
  rfl

end Kernel
end BumbelBee
