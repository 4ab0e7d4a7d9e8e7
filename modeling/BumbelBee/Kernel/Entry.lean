import BumbelBee.Lib.Gates

/-!
# Into the kernel and out of it (`kernel/isr_stub.asm`, `kernel/idt.c`, `kernel/gdt.c`)

The tables `gdt_init` and `idt_init` build, the stubs the gates lead to, and
`struct interrupt_frame`, which is what a stub leaves on the stack. The way to ring 3 and back
is `kernel/usermode_entry.asm`.

The bytes of the tables are built as the source builds them, field by field, and the processor of
`Lib/Gates.lean` reads them by its own layout. Neither is written in terms of the other.
-/

namespace BumbelBee
namespace Kernel

open Lib Lib.X86

/-! ## `gdt.c` -/

def gdtKernelCodeSelector : UInt16 := 0x18
def gdtKernelDataSelector : UInt16 := 0x20
def gdtUserCodeSelector : UInt16 := 0x2b
def gdtUserDataSelector : UInt16 := 0x33
def gdtTssSelector : UInt16 := 0x38

/-- `sizeof(struct tss64)`. -/
def tssSize : UInt32 := 104

/-- `set_tss_descriptor`: `gdt_entries[7]` and `gdt_entries[8]`. -/
def setTssDescriptor (base : UInt64) (limit : UInt32) : UInt64 × UInt64 :=
  let low : UInt64 := 0
  let low := low ||| (limit.toUInt64 &&& 0xffff)
  let low := low ||| (base &&& 0xffffff) <<< 16
  let low := low ||| (0x89 : UInt64) <<< 40
  let low := low ||| (limit >>> 16 &&& 0x0f).toUInt64 <<< 48
  let low := low ||| (base >>> 24 &&& 0xff) <<< 56
  (low, base >>> 32 &&& 0xffffffff)

/-- `gdt_entries`, with `kernel_tss` at `tss`. -/
def gdtEntries (tss : UInt64) : List UInt64 :=
  let descriptor := setTssDescriptor tss (tssSize - 1)
  [0, 0x00cf9a000000ffff, 0x00cf92000000ffff, 0x00af9a000000ffff, 0x00af92000000ffff,
    0x00affa000000ffff, 0x00aff2000000ffff, descriptor.1, descriptor.2]

/-! ## `idt.c` -/

def setGate (handler : UInt64) (typeAttr : UInt8) : Gate where
  offsetLow := (handler &&& 0xffff).toUInt16
  selector := gdtKernelCodeSelector
  ist := 0
  typeAttr := typeAttr
  offsetMid := (handler >>> 16 &&& 0xffff).toUInt16
  offsetHigh := (handler >>> 32).toUInt32
  zero := 0

/-- `idt`, behind `idt_init`. -/
def idtInit (isrStubTable : UInt8 → UInt64) (isrStub128 : UInt64) (vector : UInt8) : Gate :=
  if vector = 0x80 then setGate isrStub128 0xee
  else if vector < 48 then setGate (isrStubTable vector) 0x8e
  else ⟨0, 0, 0, 0, 0, 0, 0⟩

/-- What `lgdt`, `lidt` and `ltr` are given. -/
def kernelTables (tss : UInt64) (isrStubTable : UInt8 → UInt64) (isrStub128 : UInt64) : Tables where
  gate := idtInit isrStubTable isrStub128
  segment i := (gdtEntries tss).getD i.toNat 0
  task := gdtTssSelector

/-! ## `isr_stub.asm` -/

structure InterruptFrame where
  r15 : UInt64
  r14 : UInt64
  r13 : UInt64
  r12 : UInt64
  r11 : UInt64
  r10 : UInt64
  r9 : UInt64
  r8 : UInt64
  rsi : UInt64
  rdi : UInt64
  rbp : UInt64
  rdx : UInt64
  rcx : UInt64
  rbx : UInt64
  rax : UInt64
  vector : UInt64
  errorCode : UInt64
  rip : UInt64
  cs : UInt64
  rflags : UInt64
  rsp : UInt64
  ss : UInt64
deriving DecidableEq, Repr

/-- Its fields, as they lie in memory. -/
def InterruptFrame.words (f : InterruptFrame) : List UInt64 :=
  [f.r15, f.r14, f.r13, f.r12, f.r11, f.r10, f.r9, f.r8, f.rsi, f.rdi, f.rbp, f.rdx, f.rcx, f.rbx,
    f.rax, f.vector, f.errorCode, f.rip, f.cs, f.rflags, f.rsp, f.ss]

/-- `PUSH_REGS`. -/
def pushRegs : List Reg :=
  [.rax, .rbx, .rcx, .rdx, .rbp, .rdi, .rsi, .r8, .r9, .r10, .r11, .r12, .r13, .r14, .r15]

/-- `POP_REGS`. -/
def popRegs : List Reg :=
  [.r15, .r14, .r13, .r12, .r11, .r10, .r9, .r8, .rsi, .rdi, .rbp, .rdx, .rcx, .rbx, .rax]

/-- The vectors whose stub is an `ISR_ERR`. -/
def isrErr : List UInt8 := [8, 10, 11, 12, 13, 14, 17, 21, 30]

/-- `isr_stub_N` and `isr_common_stub`, up to the call of `isr_dispatch`. -/
def isrStub (vector : UInt8) : List Instr :=
  (if vector ∈ isrErr then [] else [.pushImm 0]) ++ [.pushImm vector.toUInt64] ++
    [.cld] ++ pushRegs.map .push ++ [.mov .rdi .rsp]

/-- What is behind the call. -/
def isrReturn : List Instr := popRegs.map .pop ++ [.add .rsp 16, .iretq]

/-! ## What `isr_dispatch` does to a frame -/

/-- `usermode_handle_syscall`; `none` where it leaves ring 3 for good. -/
def usermodeHandleSyscall (f : InterruptFrame) : Option InterruptFrame :=
  if f.rax = 1 then some { f with rax := 0 }
  else if f.rax = 2 then some { f with rax := f.rip }
  else if f.rax = 3 then none
  else some { f with rax := -1 }

/-- `isr_dispatch`. -/
def dispatchFrame (f : InterruptFrame) : Option InterruptFrame :=
  if f.vector = 0x80 then usermodeHandleSyscall f else some f

/-! ## `usermode.c` -/

/-- `usermode_record_kernel_rsp`, with `&usermode_state.kernel_rsp` first. -/
def usermodeRecordKernelRsp (kernelRsp rsp : UInt64) (mem : UInt64 → UInt8) : UInt64 → UInt8 :=
  putWord kernelRsp rsp mem

/-- `usermode_kernel_rsp` -/
def usermodeKernelRsp (kernelRsp : UInt64) (mem : UInt64 → UInt8) : UInt64 := getWord kernelRsp mem

/-! ## `usermode_entry.asm` -/

/-- `usermode_enter`, up to the call of `usermode_record_kernel_rsp`. -/
def usermodeEnter : List Instr :=
  [.push .rbp, .push .rbx, .push .r12, .push .r13, .push .r14, .push .r15, .push .rdi, .push .rsi,
   .lea .rax .rsp 16, .mov .rdi .rax]

/-- What is behind the call. -/
def usermodeIret : List Instr :=
  [.pop .rsi, .pop .rdi,
   .pushImm gdtUserDataSelector.toUInt64, .push .rsi, .pushImm 0x202,
   .pushImm gdtUserCodeSelector.toUInt64, .push .rdi, .iretq]

def usermodeLeaveToKernel : List Instr :=
  [.movAx gdtKernelDataSelector, .movSeg .ds .rax, .movSeg .es .rax, .movSeg .fs .rax,
   .movSeg .gs .rax, .mov .rsp .rdi,
   .pop .r15, .pop .r14, .pop .r13, .pop .r12, .pop .rbx, .pop .rbp, .sti, .ret]

end Kernel
end BumbelBee
