import BumbelBee.Kernel.Aspace

/-!
# The memory map and the boot page tables (`kernel/memory.c`, `boot/stage2.asm`)

`memory_init` takes the pages `page_alloc` hands out from one region of the firmware's map.
The tables stage 2 builds before it enters long mode are the ones the kernel runs on, and the
root every address space is cloned from; `pageWalk` is what the processor reads out of them.

`pageWalk` belongs to the processor and not to the source. It is here because the kernel hands out
pages by their physical address and then uses this address, so that a page is of use only where the
walk leads to it.
-/

namespace BumbelBee
namespace Kernel

open Lib

/-! ## `memory_init` -/

structure E820Entry where
  base : UInt64
  length : UInt64
  type : UInt32
deriving DecidableEq, Repr

/-- The statics `memory_init` sets. -/
structure MemoryMap where
  totalBytes : UInt64
  usedBytes : UInt64
  regionCount : UInt64
  allocBase : UInt64
  allocNext : UInt64
  allocLimit : UInt64
deriving DecidableEq, Repr

/-- The body of the loop. -/
def MemoryMap.entry (m : MemoryMap) (e : E820Entry) : MemoryMap :=
  if e.type = 1 then
    let m := { m with totalBytes := m.totalBytes + e.length }
    if e.base ≥ 0x100000 ∧ e.length > m.allocLimit - m.allocBase then
      { m with allocBase := e.base, allocLimit := e.base + e.length }
    else m
  else m

def memoryInit (entries : List E820Entry) : MemoryMap :=
  let m := entries.foldl MemoryMap.entry ⟨0, 0, UInt64.ofNat entries.length, 0, 0, 0⟩
  let m := if m.allocBase < 0x200000 then { m with allocBase := 0x200000 } else m
  { m with allocNext := pageOf (m.allocBase + 0xfff), usedBytes := 0 }

/-- The map's part of the memory, before the first `page_alloc`. -/
def MemoryMap.memory (cr3 : UInt64) (phys : UInt64 → UInt8) (m : MemoryMap) : Memory where
  allocNext := m.allocNext
  allocLimit := m.allocLimit
  usedBytes := m.usedBytes
  cr3 := cr3
  phys := phys

/-- The pages that `n` calls of `page_alloc` return; a call that returns `NULL` returns none. -/
def pageAllocs : Nat → Memory → List UInt64
  | 0, _ => []
  | n + 1, m =>
    let (page, m) := pageAlloc m
    (if page = 0 then [] else [page]) ++ pageAllocs n m

/-! ## The tables of stage 2 -/

/-- `pml4_table`: stage 2 is loaded at `0x8000`, and its code ends within a page. -/
def pml4Table : UInt64 := 0x9000
def pdptTable : UInt64 := 0xa000
def pdTable : UInt64 := 0xb000

/-- `.map_loop`, at `ecx`. -/
def mapEntry (m : Memory) (ecx : Nat) : Memory :=
  m.setEntry pdTable (UInt64.ofNat ecx) ((UInt64.ofNat ecx <<< 21) ||| 0x087)

/-- What `protected_mode_entry` writes into the three tables, which are loaded as zeroes. -/
def protectedModeEntry (m : Memory) : Memory :=
  let m := ((m.clear pml4Table pageSize).clear pdptTable pageSize).clear pdTable pageSize
  let m := m.setEntry pml4Table 0 (pdptTable ||| 0x007)
  let m := m.setEntry pdptTable 0 (pdTable ||| 0x007)
  let m := (List.range 512).foldl mapEntry m
  { m with cr3 := pml4Table }

/-! ## The page walk of the processor -/

/-- Bits 51 to 12 of an entry: the table or the page it leads to. -/
def entryFrame (e : UInt64) : UInt64 := e &&& 0x000ffffffffff000

def entryPresent (e : UInt64) : Bool := e &&& 1 != 0
def entryUser (e : UInt64) : Bool := e &&& 4 != 0

/-- The page-size bit: the entry maps a page itself. -/
def entryLarge (e : UInt64) : Bool := e &&& 0x80 != 0

/-- What a walk ends with. -/
structure Translation where
  phys : UInt64
  /-- The user bit is set at every level. -/
  user : Bool
deriving DecidableEq, Repr

/-- The walk from a page directory on, under entries with the user bits `user`. -/
def Memory.walkPd (pd vaddr : UInt64) (user : Bool) (m : Memory) : Option Translation :=
  let e := m.entry pd (tableIndex 21 vaddr)
  if !entryPresent e then none
  else if entryLarge e then
    some ⟨(e &&& 0x000fffffffe00000) + (vaddr &&& 0x1fffff), user && entryUser e⟩
  else
    let pte := m.entry (entryFrame e) (tableIndex 12 vaddr)
    if !entryPresent pte then none
    else some ⟨entryFrame pte + (vaddr &&& 0xfff), user && entryUser e && entryUser pte⟩

/-- The four-level walk; `none` is a page fault, or a fault for an address that is not
    canonical. -/
def Memory.pageWalk (cr3 vaddr : UInt64) (m : Memory) : Option Translation :=
  if vaddr >>> 47 ≠ 0 ∧ vaddr >>> 47 ≠ 0x1ffff then none
  else
    let pml4e := m.entry (entryFrame cr3) (tableIndex 39 vaddr)
    if !entryPresent pml4e then none
    else
      let pdpte := m.entry (entryFrame pml4e) (tableIndex 30 vaddr)
      if !entryPresent pdpte then none
      else if entryLarge pdpte then
        some ⟨(pdpte &&& 0x000fffffc0000000) + (vaddr &&& 0x3fffffff),
          entryUser pml4e && entryUser pdpte⟩
      else m.walkPd (entryFrame pdpte) vaddr (entryUser pml4e && entryUser pdpte)

end Kernel
end BumbelBee
