import Mathlib.Data.List.FinRange
import Mathlib.Data.Fintype.Basic
import Mathlib.Logic.Function.Basic
import BumbelBee.Kernel.ExecImage

/-!
# Pages and address spaces (`kernel/memory.c`, `kernel/aspace.c`)

`page_alloc` hands out one page after the other and takes none back. An address space is a
slot of `aspace_table`, found by its id; it goes with its last reference. The page tables
are bytes of the physical memory, as are the pages they lead to.

The memory is a function of the address, and a page table is nothing but what it says at 512 places
of a page. No call of `aspace.c` asks for so much. But that a write to one space leaves the others
as they were is in the source a matter of which addresses the tables and the pages have, so the
model has to have the addresses.
-/

namespace BumbelBee
namespace Kernel

open Lib

/-! ## Physical memory -/

/-- What `memory_init` leaves, the bytes themselves and the cr3 register. -/
structure Memory where
  allocNext : UInt64
  allocLimit : UInt64
  usedBytes : UInt64
  cr3 : UInt64
  phys : UInt64 → UInt8

def pageSize : Nat := 4096

/-- `page & ~0xfffull`. -/
def pageOf (addr : UInt64) : UInt64 := addr &&& 0xfffffffffffff000

/-- `page_alloc`; 0 is `NULL`. -/
def pageAlloc (m : Memory) : UInt64 × Memory :=
  if m.allocNext + 4096 > m.allocLimit then (0, m)
  else (m.allocNext, { m with
    allocNext := m.allocNext + 4096
    usedBytes := m.usedBytes + 4096 })

/-- `memcpy(addr, bytes, length)`. -/
def Memory.store (addr : UInt64) (bytes : List UInt8) (m : Memory) : Memory :=
  { m with phys := fun a =>
      if (a - addr).toNat < bytes.length then bytes.getD (a - addr).toNat 0 else m.phys a }

/-- The `n` bytes at an address. -/
def Memory.load (addr : UInt64) (n : Nat) (m : Memory) : List UInt8 :=
  (List.range n).map fun i => m.phys (addr + UInt64.ofNat i)

/-- `memset(addr, 0, n)`. -/
def Memory.clear (addr : UInt64) (n : Nat) (m : Memory) : Memory :=
  m.store addr (List.replicate n 0)

/-- `table[index]` of an array of `u64`. -/
def Memory.entry (table index : UInt64) (m : Memory) : UInt64 :=
  (takeU64 (m.load (table + 8 * index) 8)).1

def Memory.setEntry (table index value : UInt64) (m : Memory) : Memory :=
  m.store (table + 8 * index) (putU64 value)

/-! ## The table -/

abbrev aspaceMax : Nat := 16

def aspaceUserWindowSize : UInt64 := 0x00200000
def aspaceUserStackTop : UInt64 := aspaceUserBase + aspaceUserWindowSize

/-- `ASPACE_KIND_KERNEL`, `ASPACE_KIND_USER_SHARED`. -/
inductive AspaceKind
  | kernel | userShared
deriving DecidableEq, Repr

structure AspaceInfo where
  id : UInt32
  kind : AspaceKind
  refcount : UInt32
  isolated : Bool
  cr3 : UInt64
  userStackTop : UInt64
  label : List UInt8
deriving DecidableEq, Repr

/-- A used `struct aspace_slot`; no page table is 0. -/
structure AspaceSlot where
  info : AspaceInfo
  userPt : UInt64
deriving DecidableEq, Repr

/-- The file's variables, and the memory they point into. -/
structure Aspaces where
  table : Fin aspaceMax → Option AspaceSlot
  nextAspaceId : UInt32
  kernelAspaceId : UInt32
  kernelCr3 : UInt64
  memory : Memory

/-- `copy_label`, into `cap` bytes with the terminator. -/
def copyLabel (cap : Nat) (src : List UInt8) : List UInt8 := src.take (cap - 1)

def Aspaces.findSlot (id : UInt32) (s : Aspaces) : Option (Fin aspaceMax) :=
  (List.finRange aspaceMax).find? fun i => (s.table i).any fun a => a.info.id == id

/-- The slot `aspace_create` takes. -/
def Aspaces.unusedSlot (s : Aspaces) : Option (Fin aspaceMax) :=
  (List.finRange aspaceMax).find? fun i => (s.table i).isNone

/-- The index of an address in a table that resolves the bits from `shift` on. -/
def tableIndex (shift addr : UInt64) : UInt64 := (addr >>> shift) &&& 0x1ff

/-- `clone_kernel_root`; the pages it got stay taken when it fails. -/
def cloneKernelRoot (kernelCr3 : UInt64) (info : AspaceInfo) (m : Memory) :
    Option AspaceInfo × Memory :=
  let srcPml4 := kernelCr3
  let (newPml4, m) := pageAlloc m
  let (newPdpt, m) := pageAlloc m
  let (newPd, m) := pageAlloc m
  let (newPt, m) := pageAlloc m
  if srcPml4 = 0 ∨ newPml4 = 0 ∨ newPdpt = 0 ∨ newPd = 0 ∨ newPt = 0 then (none, m)
  else
    let m := m.clear newPml4 pageSize
    let m := m.store newPdpt (m.load (pageOf (m.entry srcPml4 0)) pageSize)
    let m := m.clear newPd pageSize
    let m := m.clear newPt pageSize
    let m := m.setEntry newPd 0 (newPt ||| 0x007)
    let m := m.setEntry newPdpt (tableIndex 30 aspaceUserBase) (newPd ||| 0x007)
    let m := m.setEntry newPml4 0 (newPdpt ||| 0x007)
    (some { info with isolated := true, cr3 := newPml4, userStackTop := aspaceUserStackTop }, m)

/-- The page table of the user window, through the tables above it. -/
def userPtOf (cr3 : UInt64) (m : Memory) : UInt64 :=
  let pml4 := cr3
  let pdpt := pageOf (m.entry pml4 0)
  let pd := pageOf (m.entry pdpt (tableIndex 30 aspaceUserBase))
  pageOf (m.entry pd (tableIndex 21 aspaceUserBase))

/-- What `aspace_create` writes into a slot first. -/
def Aspaces.newInfo (kind : AspaceKind) (label : Option (List UInt8)) (s : Aspaces) : AspaceInfo where
  id := s.nextAspaceId
  kind := kind
  refcount := 1
  isolated := false
  cr3 := s.kernelCr3
  userStackTop := 0
  label := copyLabel 24 (label.getD (cstr "anon"))

/-- `aspace_create`: the id, or 0. -/
def Aspaces.create (kind : AspaceKind) (label : Option (List UInt8)) (s : Aspaces) :
    UInt32 × Aspaces :=
  match s.unusedSlot with
  | none => (0, s)
  | some i =>
    let info := s.newInfo kind label
    let s := { s with nextAspaceId := s.nextAspaceId + 1 }
    match kind with
    | .kernel => (info.id, { s with table := Function.update s.table i (some ⟨info, 0⟩) })
    | .userShared =>
      match cloneKernelRoot s.kernelCr3 info s.memory with
      | (none, memory) => (0, { s with memory })  -- the slot is cleared again
      | (some info, memory) =>
        (info.id, { s with
          table := Function.update s.table i (some ⟨info, userPtOf info.cr3 memory⟩)
          memory })

/-- A slot with another reference count. -/
def Aspaces.setRefcount (i : Fin aspaceMax) (a : AspaceSlot) (refcount : UInt32) (s : Aspaces) :
    Aspaces :=
  { s with table := Function.update s.table i (some { a with info := { a.info with refcount } }) }

/-- `aspace_retain`; `none` for -1. -/
def Aspaces.retain (id : UInt32) (s : Aspaces) : Option Aspaces := do
  let i ← s.findSlot id
  let a ← s.table i
  some (s.setRefcount i a (a.info.refcount + 1))

/-- `aspace_release`, whose answer nobody looks at. -/
def Aspaces.release (id : UInt32) (s : Aspaces) : Aspaces :=
  match s.findSlot id with
  | none => s
  | some i =>
    match s.table i with
    | none => s
    | some a =>
      let refcount := if a.info.refcount > 0 then a.info.refcount - 1 else a.info.refcount
      if refcount = 0 ∧ id ≠ s.kernelAspaceId then
        { s with table := Function.update s.table i none }
      else s.setRefcount i a refcount

/-- `aspace_fork_clone`: the id, or 0. -/
def Aspaces.forkClone (parentId : UInt32) (s : Aspaces) : UInt32 × Aspaces :=
  match s.findSlot parentId >>= s.table with
  | none => (0, s)
  | some slot =>
    match slot.info.kind with
    | .kernel =>
      match s.retain parentId with
      | none => (0, s)
      | some s => (parentId, s)
    | kind => s.create kind (some slot.info.label)

/-- `aspace_switch`, whose answer nobody looks at. -/
def Aspaces.switch (id : UInt32) (s : Aspaces) : Aspaces :=
  match s.findSlot id >>= s.table with
  | none => s
  | some slot => { s with memory := { s.memory with cr3 := slot.info.cr3 } }

/-- `aspace_init`. -/
def aspaceInit (m : Memory) : Aspaces :=
  let s : Aspaces := ⟨fun _ => none, 1, 0, m.cr3, m⟩
  let (id, s) := s.create .kernel (some (cstr "kernel"))
  { s with kernelAspaceId := id }

/-! ## The user window -/

/-- `ensure_user_page`; `false` for -1. -/
def ensureUserPage (slot : AspaceSlot) (vaddr : UInt64) (m : Memory) : Bool × Memory :=
  let page := pageOf vaddr
  if slot.userPt = 0 then (false, m)
  else if page < aspaceUserBase ∨ page ≥ aspaceUserBase + aspaceUserWindowSize then (false, m)
  else
    let ptIndex := tableIndex 12 page
    if m.entry slot.userPt ptIndex &&& 1 ≠ 0 then (true, m)
    else
      let (phys, m) := pageAlloc m
      if phys = 0 then (false, m)
      else
        let m := m.clear phys pageSize
        (true, m.setEntry slot.userPt ptIndex (phys ||| 0x007))

/-- How much of a page is left behind an address. -/
def pageRest (vaddr : UInt64) : Nat := 4096 - (vaddr &&& 0xfff).toNat

theorem pageRest_pos (vaddr : UInt64) : 0 < pageRest vaddr := by
  have hoff : (vaddr &&& 0xfff).toNat < 4096 := by
    rw [UInt64.toNat_and]
    exact Nat.lt_of_le_of_lt Nat.and_le_right (by decide)
  unfold pageRest
  omega

/-- The loop of `aspace_write` and `aspace_zero`, page by page. -/
def fillUser (slot : AspaceSlot) (vaddr : UInt64) (src : List UInt8) (m : Memory) : Bool × Memory :=
  if _hnil : src = [] then (true, m)
  else
    let page := pageOf vaddr
    let off := vaddr &&& 0xfff
    let chunk := min (pageRest vaddr) src.length
    match ensureUserPage slot page m with
    | (false, m) => (false, m)
    | (true, m) =>
      let dst := pageOf (m.entry slot.userPt (tableIndex 12 page)) + off
      fillUser slot (vaddr + UInt64.ofNat chunk) (src.drop chunk) (m.store dst (src.take chunk))
termination_by src.length
decreasing_by
  have hpos := pageRest_pos vaddr
  have hlen := List.length_pos_iff.mpr _hnil
  simp only [List.length_drop]
  omega

/-- `aspace_write`; `false` for -1. -/
def Aspaces.write (id : UInt32) (vaddr : UInt64) (data : List UInt8) (s : Aspaces) :
    Bool × Aspaces :=
  match s.findSlot id >>= s.table with
  | none => (false, s)
  | some slot =>
    let (ok, memory) := fillUser slot vaddr data s.memory
    (ok, { s with memory })

/-- `aspace_zero`; `false` for -1. -/
def Aspaces.zero (id : UInt32) (vaddr : UInt64) (bytes : UInt32) (s : Aspaces) : Bool × Aspaces :=
  s.write id vaddr (List.replicate bytes.toNat 0)

end Kernel
end BumbelBee
