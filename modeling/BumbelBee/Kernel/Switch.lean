import BumbelBee.Kernel.Sched
import BumbelBee.Lib.X86

/-!
# Switching stacks (`kernel/switch.asm`, `kernel/sched.c`)

What stands behind a task's `code` in the task table: a stack of its own, and the place in its
`struct task` where `context_switch` leaves the stack pointer. The shell runs on the stack the
boot loader gave the kernel; every other task on the array in its `struct task`.
-/

namespace BumbelBee
namespace Kernel

open Lib Lib.X86

/-- `context_switch(u64 *old_rsp, u64 *new_rsp)`. -/
def contextSwitch : List Instr :=
  [.push .rbp, .push .rbx, .push .r12, .push .r13, .push .r14, .push .r15,
   .store .rdi .rsp,
   .load .rsp .rsi,
   .pop .r15, .pop .r14, .pop .r13, .pop .r12, .pop .rbx, .pop .rbp,
   .ret]

/-! ## Where the stacks are -/

/-- `sizeof(struct task)`, and where `rsp` and `stack` are in it. -/
def taskSize : Nat := 16528
def taskRspOffset : Nat := 96
def taskStackOffset : Nat := 104

/-- `TASK_STACK_SIZE`. -/
def taskStackSize : Nat := 16384

/-- Where the linker put `tasks`, and the stack the kernel is entered on. -/
structure Stacks where
  tasks : UInt64
  bootLow : Nat
  bootHigh : Nat

namespace Stacks

variable (l : Stacks) (i : Fin maxTasks)

/-- `&tasks[i]` -/
def task : UInt64 := l.tasks + UInt64.ofNat (taskSize * i.val)

/-- `&tasks[i].rsp` -/
def rspCell : UInt64 := l.task i + UInt64.ofNat taskRspOffset

def low : Nat := if i = 0 then l.bootLow else (l.task i).toNat + taskStackOffset

/-- Behind the last byte of the stack. -/
def high : Nat := if i = 0 then l.bootHigh else (l.task i).toNat + taskStackOffset + taskStackSize

end Stacks

/-! ## What the table's calls write to the slots -/

/-- `memset(&tasks[i], 0, sizeof(tasks[i]))`. -/
def clearTask (l : Stacks) (i : Fin maxTasks) (mem : UInt64 → UInt8) : UInt64 → UInt8 :=
  putBytes (l.task i) (List.replicate taskSize 0) mem

/-- What `sched_spawn_with_parent_aspace` writes to slot `i`, as far as the switch goes: the
    stack is prepared as if the task had called `context_switch` from where the trampoline
    begins. -/
def spawnStack (l : Stacks) (trampoline : UInt64) (i : Fin maxTasks) (mem : UInt64 → UInt8) :
    UInt64 → UInt8 :=
  let pushed := pushWords [trampoline, 0, 0, 0, 0, 0, 0] (UInt64.ofNat (l.high i))
    (clearTask l i mem)
  putWord (l.rspCell i) pushed.1 pushed.2

/-- What `sched_prepare_replay` does to the slots. -/
def clearZombies {α : Type} (l : Stacks) (s : Sched α) (mem : UInt64 → UInt8) : UInt64 → UInt8 :=
  (((List.finRange maxTasks).drop 1).filter s.isZombie).foldl (fun mem i => clearTask l i mem) mem

end Kernel
end BumbelBee
