import BumbelBee.Kernel.MemoryMap
import BumbelBee.Lib.Pages

/-!
# From the firmware to the kernel (`boot/stage2.asm`)

Stage 2 starts in real mode, with its stack below `0x7a00`. It has the firmware read the kernel
and list the memory, each through an interrupt, and goes on to long mode. What the firmware does
is a parameter; both services leave the registers that the loops count in as they are.
-/

namespace BumbelBee
namespace Kernel

open Lib

def kernelLoadAddr : UInt64 := 0x10000
def bootInfoAddr : UInt64 := 0x7000
def e820BufAddr : UInt16 := 0x7400
def e820MaxEntries : UInt16 := 64

/-- A real-mode address. -/
def linear (seg off : UInt16) : UInt64 := UInt64.ofNat (seg.toNat * 16 + off.toNat)

/-- `kernel_dap`: what is to be read, and where to. -/
structure Dap where
  blocks : UInt16
  offset : UInt16
  segment : UInt16
  lba0 : UInt16
  lba1 : UInt16
  lba2 : UInt16
  lba3 : UInt16
deriving DecidableEq, Repr

def Dap.lba (p : Dap) : Nat :=
  p.lba0.toNat + 2 ^ 16 * p.lba1.toNat + 2 ^ 32 * p.lba2.toNat + 2 ^ 48 * p.lba3.toNat

/-- What `int 0x15` leaves. -/
structure E820Answer where
  carry : Bool
  eax : UInt32
  ebx : UInt32
  mem : UInt64 → UInt8

structure Firmware where
  /-- `int 0x13` with `ah = 0x42`, for a drive: the carry flag, and the memory behind it. -/
  int13 : Dap → UInt8 → (UInt64 → UInt8) → Bool × (UInt64 → UInt8)
  /-- `int 0x15` with `eax = 0xe820`, of `ebx` and `es:di`. -/
  int15 : UInt32 → UInt16 → (UInt64 → UInt8) → E820Answer

/-! ## `load_kernel` -/

/-- `adc a, b` -/
def adc (a b : UInt16) (carry : Bool) : UInt16 × Bool :=
  (a + b + (if carry then 1 else 0),
    decide (2 ^ 16 ≤ a.toNat + b.toNat + (if carry then 1 else 0)))

/-- The packet is moved on by the `cx` sectors that were read. -/
def Dap.advance (cx : UInt16) (p : Dap) : Dap :=
  let (lba0, carry) := adc p.lba0 cx false
  let (lba1, carry) := adc p.lba1 0 carry
  let (lba2, carry) := adc p.lba2 0 carry
  let (lba3, _) := adc p.lba3 0 carry
  { p with segment := p.segment + (cx <<< 5), lba0, lba1, lba2, lba3 }

/-- How many sectors the next call reads. -/
def chunkSize (bx : UInt16) : UInt16 := if bx ≤ 127 then bx else 127

theorem chunkSize_lt {bx : UInt16} (h : bx ≠ 0) : (bx - chunkSize bx).toNat < bx.toNat := by
  have hpos : bx.toNat ≠ 0 := fun hzero => h (UInt16.toNat_inj.mp hzero)
  unfold chunkSize
  split
  · rw [UInt16.sub_self]
    exact Nat.pos_of_ne_zero hpos
  · rename_i hbig
    have hle : (127 : UInt16) ≤ bx := Nat.le_of_lt (UInt16.lt_iff_toNat_lt.mp (UInt16.not_le.mp hbig))
    rw [UInt16.toNat_sub_of_le _ _ hle]
    exact Nat.sub_lt (Nat.pos_of_ne_zero hpos) (by decide)

/-- `.chunk_loop`; `false` is `disk_fail`, which does not come back. -/
def chunkLoop (fw : Firmware) (bx : UInt16) (p : Dap) (mem : UInt64 → UInt8) :
    Bool × (UInt64 → UInt8) :=
  if h : bx = 0 then (true, mem)
  else
    let p := { p with blocks := chunkSize bx }
    match fw.int13 p (mem bootInfoAddr) mem with
    | (true, mem) => (false, mem)
    | (false, mem) =>
      have := chunkSize_lt h
      chunkLoop fw (bx - chunkSize bx) (p.advance (chunkSize bx)) mem
termination_by bx.toNat

/-- `load_kernel`, of `KERNEL_SECTORS` and `KERNEL_LBA`. -/
def loadKernel (fw : Firmware) (sectors : UInt16) (lba : UInt32) (mem : UInt64 → UInt8) :
    Bool × (UInt64 → UInt8) :=
  chunkLoop fw sectors
    ⟨sectors, 0x0000, 0x1000, lba.toUInt16, (lba >>> 16).toUInt16, 0, 0⟩ mem

/-! ## `detect_memory` -/

/-- `.e820_next`, at `ebx`, `di` and `bp`: the count, and the memory. -/
def e820Next (fw : Firmware) (ebx : UInt32) (di bp : UInt16) (mem : UInt64 → UInt8) :
    UInt16 × (UInt64 → UInt8) :=
  let r := fw.int15 ebx di mem
  if r.carry then (bp, r.mem)
  else if r.eax ≠ 0x534d4150 then (bp, r.mem)
  else if h : bp + 1 ≥ e820MaxEntries then (bp + 1, r.mem)
  else if r.ebx ≠ 0 then e820Next fw r.ebx (di + 24) (bp + 1) r.mem
  else (bp + 1, r.mem)
termination_by if bp.toNat < 64 then 64 - bp.toNat else 65
decreasing_by
  -- the counter is below its bound again, so it has not wrapped to anywhere but 0
  have hlt : (bp + 1).toNat < 64 := UInt16.lt_iff_toNat_lt.mp (UInt16.not_le.mp h)
  have hbp := bp.toNat_lt
  rw [if_pos hlt]
  rw [UInt16.toNat_add] at hlt ⊢
  simp only [UInt16.reduceToNat] at hlt ⊢
  split <;> omega

/-- Where the address is on the stack that a routine returns to. -/
def returnSlot : UInt64 := 0x79fe

/-- `detect_memory`, called from before `ret`: where it returns to, and the memory. -/
def detectMemory (fw : Firmware) (ret : UInt16) (mem : UInt64 → UInt8) :
    UInt16 × (UInt64 → UInt8) :=
  let mem := putBytes returnSlot (putU16 ret) mem
  let (bp, mem) := e820Next fw 0 e820BufAddr 0 mem
  let mem := putBytes (bootInfoAddr + 2) (putU16 bp) mem
  let mem := putBytes (bootInfoAddr + 4) (putU16 (e820BufAddr - 0x7000)) mem
  ((takeU16 (getBytes returnSlot 2 mem)).1, mem)

/-! ## All of it -/

inductive Handover
  | diskFail
  /-- `detect_memory` returned somewhere else. -/
  | astray (ip : UInt16)
  /-- The kernel is entered. -/
  | kernel (m : Memory)

/-- `boot_stage2`, of the boot drive and the address behind its call of `detect_memory`. -/
def bootStage2 (fw : Firmware) (sectors : UInt16) (lba : UInt32) (ret : UInt16) (dl : UInt8)
    (mem : UInt64 → UInt8) : Handover :=
  match loadKernel fw sectors lba (putBytes bootInfoAddr [dl] mem) with
  | (false, _) => .diskFail
  | (true, mem) =>
    let (ip, mem) := detectMemory fw ret mem
    if ip ≠ ret then .astray ip
    else .kernel (protectedModeEntry ⟨0, 0, 0, 0, mem⟩)

/-! ## What `memory_init` makes of it -/

def e820EntryAt (addr : UInt64) (mem : UInt64 → UInt8) : E820Entry :=
  ⟨getWord addr mem, getWord (addr + 8) mem, (takeU32 (getBytes (addr + 16) 4 mem)).1⟩

/-- The entries it goes through, of a `struct boot_info`. -/
def bootInfoEntries (info : UInt64) (mem : UInt64 → UInt8) : List E820Entry :=
  let count := (takeU16 (getBytes (info + 2) 2 mem)).1
  let entries := info + (takeU16 (getBytes (info + 4) 2 mem)).1.toUInt64
  (List.range count.toNat).map fun i => e820EntryAt (entries + 24 * UInt64.ofNat i) mem

end Kernel
end BumbelBee
