import BumbelBee.Kernel.Switch
import BumbelBee.Lib.Latest
import BumbelBee.Proof.TaskTable

/-!
# A task goes on where it stopped

The task table takes a task's `code` for what it still has to run. Below it there is one
processor, and `context_switch` between two stacks. A task that is switched to again finds the
registers a call keeps, its stack pointer, its whole stack and its return address as it left
them, and a new one starts at the trampoline (`context_switch_resumes`): whatever the others did
on their own stacks, and wherever interrupts came in, the switch itself included.

Assembly and table are two descriptions of one switch, and neither is enough. The table knows who
runs next but not what a register is; the routine knows registers but not whose stack it is on.
`Resumable` joins them: the table is consistent, every task that is ready has been left once, and
each context that was left is still all there in memory, but for the one of the task that runs.
Interrupts may come before each instruction, also between the store of one stack pointer and the
load of the other, where the processor is on the old stack and the old context is already saved.

The boot loader's stack is a matter of its own. The linker puts `tasks` over it: `0x9f000` lies
inside `tasks[0]`, and a shell that uses more than the 472 bytes down to `tasks[0].stack` writes
over the fields of its own `struct task`. `StacksApart` is about the part of it that is used.
-/

namespace BumbelBee
namespace Proof

open Lib Lib.X86 Kernel

/-! ## Where the stacks lie -/

/-- As much as is used of the stack the kernel is entered on lies apart from the task table, or
    in `tasks[0].stack`, which no task has for its own. -/
structure StacksApart (l : Stacks) : Prop where
  fits : l.tasks.toNat + taskSize * maxTasks ≤ 2 ^ 64
  bootFits : l.bootHigh < 2 ^ 64
  apart : l.bootHigh ≤ l.tasks.toNat ∨ l.tasks.toNat + taskSize * maxTasks ≤ l.bootLow ∨
    (l.tasks.toNat + taskStackOffset ≤ l.bootLow ∧
      l.bootHigh ≤ l.tasks.toNat + taskStackOffset + taskStackSize)

def OnStack (l : Stacks) (i : Fin maxTasks) (a : UInt64) : Prop :=
  l.low i ≤ a.toNat ∧ a.toNat < l.high i

def InCell (l : Stacks) (i : Fin maxTasks) (a : UInt64) : Prop :=
  (l.rspCell i).toNat ≤ a.toNat ∧ a.toNat < (l.rspCell i).toNat + 8

/-- What is not for task `i` to write: the saved stack pointers and the stacks of the others. -/
def Guarded (l : Stacks) (i : Fin maxTasks) (a : UInt64) : Prop :=
  ∃ j, InCell l j a ∨ (j ≠ i ∧ OnStack l j a)

section
variable {l : Stacks} {i j : Fin maxTasks}

theorem StacksApart.task_toNat (h : StacksApart l) (i : Fin maxTasks) :
    (l.task i).toNat = l.tasks.toNat + 16528 * i.val := by
  have hi : i.val < 8 := i.isLt
  have hfits : l.tasks.toNat + 16528 * 8 ≤ 2 ^ 64 := h.fits
  have hsize : taskSize = 16528 := rfl
  rw [Stacks.task, UInt64.toNat_add, UInt64.toNat_ofNat', hsize]
  omega

theorem StacksApart.rspCell_toNat (h : StacksApart l) (i : Fin maxTasks) :
    (l.rspCell i).toNat = l.tasks.toNat + 16528 * i.val + 96 := by
  have hi : i.val < 8 := i.isLt
  have hfits : l.tasks.toNat + 16528 * 8 ≤ 2 ^ 64 := h.fits
  rw [Stacks.rspCell, UInt64.toNat_add, h.task_toNat,
    show (UInt64.ofNat taskRspOffset).toNat = 96 from rfl]
  omega

theorem StacksApart.bounds (h : StacksApart l) (hi : i ≠ 0) :
    l.low i = l.tasks.toNat + 16528 * i.val + 104 ∧
      l.high i = l.tasks.toNat + 16528 * i.val + 16488 := by
  have hoffset : taskStackOffset = 104 := rfl
  have hsize : taskStackSize = 16384 := rfl
  rw [Stacks.low, Stacks.high, if_neg hi, if_neg hi, h.task_toNat]
  omega

theorem StacksApart.boot (h : StacksApart l) :
    l.bootHigh ≤ l.tasks.toNat ∨ l.tasks.toNat + 16528 * 8 ≤ l.bootLow ∨
      (l.tasks.toNat + 104 ≤ l.bootLow ∧ l.bootHigh ≤ l.tasks.toNat + 16488) := by
  obtain hbelow | habove | ⟨hlow, hhigh⟩ := h.apart
  · exact Or.inl hbelow
  · exact Or.inr (Or.inl habove)
  · have hoffset : taskStackOffset = 104 := rfl
    have hsize : taskStackSize = 16384 := rfl
    omega

theorem StacksApart.high_lt (h : StacksApart l) (i : Fin maxTasks) : l.high i < 2 ^ 64 := by
  by_cases hi : i = 0
  · rw [hi]
    exact h.bootFits
  · have hlt : i.val < 8 := i.isLt
    have hfits : l.tasks.toNat + 16528 * 8 ≤ 2 ^ 64 := h.fits
    have hbounds := h.bounds hi
    omega

/-- Two stacks do not even touch. -/
theorem StacksApart.stacks_apart (h : StacksApart l) (hij : i ≠ j) :
    l.high i < l.low j ∨ l.high j < l.low i := by
  have hapart := h.boot
  have hi : i.val < 8 := i.isLt
  have hj : j.val < 8 := j.isLt
  by_cases hi0 : i = 0
  · subst hi0
    have hpos : 0 < j.val := Nat.pos_of_ne_zero fun h0 => hij (Fin.ext h0.symm)
    have hbounds := h.bounds (Ne.symm hij)
    have hboot : l.low 0 = l.bootLow ∧ l.high 0 = l.bootHigh := ⟨rfl, rfl⟩
    omega
  · by_cases hj0 : j = 0
    · subst hj0
      have hpos : 0 < i.val := Nat.pos_of_ne_zero fun h0 => hij (Fin.ext h0)
      have hbounds := h.bounds hij
      have hboot : l.low 0 = l.bootLow ∧ l.high 0 = l.bootHigh := ⟨rfl, rfl⟩
      omega
    · have hbi := h.bounds hi0
      have hbj := h.bounds hj0
      have hne : i.val ≠ j.val := fun heq => hij (Fin.ext heq)
      omega

theorem StacksApart.cell_apart (h : StacksApart l) (i j : Fin maxTasks) :
    (l.rspCell i).toNat + 8 ≤ l.low j ∨ l.high j ≤ (l.rspCell i).toNat := by
  have hapart := h.boot
  have hi : i.val < 8 := i.isLt
  have hcell := h.rspCell_toNat i
  by_cases hj : j = 0
  · have hboot : l.low 0 = l.bootLow ∧ l.high 0 = l.bootHigh := ⟨rfl, rfl⟩
    rw [hj]
    omega
  · have hbounds := h.bounds hj
    omega

theorem StacksApart.cells_apart (h : StacksApart l) (hij : i ≠ j) :
    (l.rspCell i).toNat + 8 ≤ (l.rspCell j).toNat ∨
      (l.rspCell j).toNat + 8 ≤ (l.rspCell i).toNat := by
  have hne : i.val ≠ j.val := fun heq => hij (Fin.ext heq)
  rw [h.rspCell_toNat, h.rspCell_toNat]
  omega

theorem StacksApart.cell_end (h : StacksApart l) (i : Fin maxTasks) :
    (l.rspCell i).toNat + 8 ≤ 2 ^ 64 := by
  have hi : i.val < 8 := i.isLt
  have hfits : l.tasks.toNat + 16528 * 8 ≤ 2 ^ 64 := h.fits
  rw [h.rspCell_toNat]
  omega

/-- A task's own stack is not guarded from it. -/
theorem StacksApart.own (h : StacksApart l) {a : UInt64} (ha : OnStack l i a) :
    ¬ Guarded l i a := by
  rintro ⟨j, hcell | ⟨hne, hstack⟩⟩
  · have hapart := h.cell_apart j i
    simp only [OnStack, InCell] at ha hcell
    omega
  · have hapart := h.stacks_apart hne
    simp only [OnStack] at ha hstack
    omega

end

/-! ## What a task is when it does not run

A context is what the ABI keeps over a call: six registers, the stack pointer, the address to go on
at, and the bytes of the stack from the pointer on. The other registers are the caller's to save,
and a task that calls `sched_yield` has saved them on its stack.
-/

/-- The registers a call keeps, the place to go on, and the stack from its pointer on. -/
structure Context where
  r15 : UInt64
  r14 : UInt64
  r13 : UInt64
  r12 : UInt64
  rbx : UInt64
  rbp : UInt64
  rip : UInt64
  rsp : UInt64
  stack : List UInt8
deriving DecidableEq

/-- What lies below the stack of a task that was switched away from. -/
def Context.words (x : Context) : List UInt64 := [x.r15, x.r14, x.r13, x.r12, x.rbx, x.rbp, x.rip]

/-- The bytes of stack `i` from an address on. -/
def stackFrom (l : Stacks) (i : Fin maxTasks) (sp : UInt64) (mem : UInt64 → UInt8) : List UInt8 :=
  getBytes sp (l.high i - sp.toNat) mem

/-- The context in which task `i` runs. -/
def running (l : Stacks) (i : Fin maxTasks) (c : Cpu) : Context :=
  ⟨c.reg .r15, c.reg .r14, c.reg .r13, c.reg .r12, c.reg .rbx, c.reg .rbp, c.rip, c.reg .rsp,
    stackFrom l i (c.reg .rsp) c.mem⟩

/-- The one it is to go on in, when it has just called `context_switch`. -/
def calling (l : Stacks) (i : Fin maxTasks) (c : Cpu) : Context :=
  { running l i c with
    rip := c.top 0
    rsp := c.reg .rsp + 8
    stack := stackFrom l i (c.reg .rsp + 8) c.mem }

/-- The one a new task starts in. -/
def starting (l : Stacks) (trampoline : UInt64) (i : Fin maxTasks) : Context :=
  ⟨0, 0, 0, 0, 0, 0, trampoline, UInt64.ofNat (l.high i), []⟩

/-- The context is all there in memory. -/
structure SavedContext (l : Stacks) (i : Fin maxTasks) (x : Context) (mem : UInt64 → UInt8) :
    Prop where
  low : l.low i + 56 ≤ x.rsp.toNat
  high : x.rsp.toNat ≤ l.high i
  cell : getWord (l.rspCell i) mem = x.rsp - 56
  saved : Stacked (x.rsp - 56) x.words mem
  stack : stackFrom l i x.rsp mem = x.stack

section
variable {l : Stacks} {i j : Fin maxTasks} {x : Context} {mem mem' : UInt64 → UInt8}

theorem SavedContext.pointer (h : SavedContext l i x mem) : (x.rsp - 56).toNat = x.rsp.toNat - 56 :=
  UInt64.toNat_sub_of_le _ _ (UInt64.le_iff_toNat_le.mpr (by
    have hlow := h.low
    simp only [UInt64.reduceToNat]
    omega))

theorem stackFrom_congr (hplaced : StacksApart l) {sp : UInt64} (hhigh : sp.toNat ≤ l.high i)
    (hsame : ∀ a, sp.toNat ≤ a.toNat → a.toNat < l.high i → mem' a = mem a) :
    stackFrom l i sp mem' = stackFrom l i sp mem := by
  have hlt := hplaced.high_lt i
  exact getBytes_congr (by omega) fun a hlow hup => hsame a hlow (by omega)

/-- A context stays where nothing of it is written. -/
theorem SavedContext.congr (hplaced : StacksApart l) (h : SavedContext l i x mem)
    (hcell : ∀ a, InCell l i a → mem' a = mem a)
    (hstack : ∀ a, OnStack l i a → x.rsp.toNat - 56 ≤ a.toNat → mem' a = mem a) :
    SavedContext l i x mem' := by
  have hlow := h.low
  have hhigh := h.high
  have hlt := hplaced.high_lt i
  have hpointer := h.pointer
  refine ⟨hlow, hhigh, ?_, ?_, ?_⟩
  · rw [← h.cell]
    exact getWord_congr (hplaced.cell_end i) fun a ha ha' => hcell a ⟨ha, ha'⟩
  · have hlength : x.words.length = 7 := rfl
    refine h.saved.congr (by omega) fun a ha ha' => hstack a ⟨by omega, by omega⟩ (by omega)
  · rw [← h.stack]
    exact stackFrom_congr hplaced hhigh fun a ha ha' => hstack a ⟨by omega, ha'⟩ (by omega)

/-- No other task has to do with it. -/
theorem SavedContext.others (hplaced : StacksApart l) (hne : j ≠ i) (h : SavedContext l j x mem)
    (hsame : ∀ a, Guarded l i a → mem' a = mem a) : SavedContext l j x mem' :=
  h.congr hplaced (fun a ha => hsame a ⟨j, Or.inl ha⟩) fun a ha _ => hsame a ⟨j, Or.inr ⟨hne, ha⟩⟩

end

/-- The contexts of all tasks but one, as they were last left. -/
def OthersSaved (l : Stacks) (i : Fin maxTasks) (left : List (Fin maxTasks × Context))
    (mem : UInt64 → UInt8) : Prop :=
  ∀ j x, j ≠ i → latest j left = some x → SavedContext l j x mem

/-! ## Interrupts

An interrupt is a relation between two states here, with what the handlers may do to memory left
open but for the part that matters. `interrupted_of_isr` shows that the kernel's interrupts are of
this kind.
-/

/-- An interrupt comes in and is handled: every register is handed back, and of the stacks
    nothing is written but what lies below the stack pointer. -/
structure Interrupted (l : Stacks) (c c' : Cpu) : Prop where
  reg : c'.reg = c.reg
  seg : c'.seg = c.seg
  rip : c'.rip = c.rip
  rflags : c'.rflags = c.rflags
  mem : ∀ i, l.low i ≤ (c.reg .rsp).toNat → (c.reg .rsp).toNat ≤ l.high i → ∀ a,
    Guarded l i a ∨ (OnStack l i a ∧ (c.reg .rsp).toNat ≤ a.toNat) → c'.mem a = c.mem a

/-- What is not to be written while task `i` works below `top` on its stack. -/
def Above (l : Stacks) (i : Fin maxTasks) (top : Nat) (a : UInt64) : Prop :=
  Guarded l i a ∨ (OnStack l i a ∧ top ≤ a.toNat)

section
variable {l : Stacks} {i : Fin maxTasks} {left : List (Fin maxTasks × Context)}

theorem polite_interrupted (hplaced : StacksApart l) (i : Fin maxTasks) (top : Nat)
    (htop : top ≤ l.high i) : Polite (Interrupted l) (l.low i) top (Above l i top) where
  reg h := h.reg
  above h hlow hhigh a ha ha' := h.mem i hlow (by omega) a (Or.inr ⟨⟨by omega, by omega⟩, ha⟩)
  rest h hlow hhigh a ha := by
    refine h.mem i hlow (by omega) a (ha.imp_right fun ⟨hstack, habove⟩ => ⟨hstack, ?_⟩)
    omega
  apart a ha hin := by
    rcases ha with hguarded | ⟨hstack, habove⟩
    · exact hplaced.own ⟨hin.1, by omega⟩ hguarded
    · omega

theorem othersSaved_depends (hplaced : StacksApart l) (i : Fin maxTasks) (top : Nat) :
    DependsOn (Above l i top) (OthersSaved l i left) := fun _ _ hsame h j x hne hx =>
  (h j x hne hx).others hplaced hne fun a ha => hsame a (Or.inl ha)

theorem stackFrom_depends (hplaced : StacksApart l) (i : Fin maxTasks) {top : UInt64}
    (hlow : l.low i ≤ top.toNat) (hhigh : top.toNat ≤ l.high i) (bytes : List UInt8) :
    DependsOn (Above l i top.toNat) fun mem => stackFrom l i top mem = bytes := by
  rintro mem mem' hsame rfl
  exact stackFrom_congr hplaced hhigh fun a ha ha' =>
    hsame a (Or.inr ⟨⟨by omega, ha'⟩, ha⟩)

end

/-! ## One switch

The routine falls into two halves at the load of the stack pointer. Before it the old task's context
is being laid down, and the assertion is about its stack; behind it the new one's is taken up.
`AllSaved` holds in between, and there alone does it hold of every task at once.
-/

/-- What `context_switch` pops for each register. -/
def Context.reg (x : Context) : Reg → UInt64
  | .r15 => x.r15
  | .r14 => x.r14
  | .r13 => x.r13
  | .r12 => x.r12
  | .rbx => x.rbx
  | .rbp => x.rbp
  | _ => 0

/-- A call of `context_switch` that has come back, on the other stack. -/
structure Switches (l : Stacks) (i next : Fin maxTasks) (c c' : Cpu) : Prop where
  old : c.reg .rdi = l.rspCell i
  new : c.reg .rsi = l.rspCell next
  room : l.low i + 48 ≤ (c.reg .rsp).toNat
  call : (c.reg .rsp).toNat + 8 ≤ l.high i
  run : Runs (Interrupted l) contextSwitch c c'

section
variable {l : Stacks} {i next : Fin maxTasks} {left : List (Fin maxTasks × Context)} {c c' : Cpu}
  {x : Context}

/-- The contexts of all tasks. -/
def AllSaved (l : Stacks) (left : List (Fin maxTasks × Context)) (mem : UInt64 → UInt8) : Prop :=
  ∀ j x, latest j left = some x → SavedContext l j x mem

/-- A saved stack pointer is written where no stack is. -/
theorem putWord_rspCell_stack (hplaced : StacksApart l) {value a : UInt64} {mem : UInt64 → UInt8}
    {j : Fin maxTasks} (ha : OnStack l j a) : putWord (l.rspCell i) value mem a = mem a := by
  have hapart := hplaced.cell_apart i j
  exact putWord_other (hplaced.cell_end i) fun hin => by
    simp only [OnStack] at ha
    omega

theorem putWord_rspCell_cell (hplaced : StacksApart l) {value a : UInt64} {mem : UInt64 → UInt8}
    {j : Fin maxTasks} (hne : j ≠ i) (ha : InCell l j a) :
    putWord (l.rspCell i) value mem a = mem a := by
  have hapart := hplaced.cells_apart hne
  exact putWord_other (hplaced.cell_end i) fun hin => by
    simp only [InCell] at ha
    omega

/-- With the stack pointer in its place, what was pushed is a context. -/
theorem savedContext_of_pushed (hplaced : StacksApart l) {mem : UInt64 → UInt8}
    (hlow : l.low i + 56 ≤ x.rsp.toNat) (hhigh : x.rsp.toNat ≤ l.high i)
    (hwords : Stacked (x.rsp - 56) x.words mem) (hstack : stackFrom l i x.rsp mem = x.stack) :
    SavedContext l i x (putWord (l.rspCell i) (x.rsp - 56) mem) := by
  have hend := hplaced.high_lt i
  have hpointer : (x.rsp - 56).toNat = x.rsp.toNat - 56 :=
    UInt64.toNat_sub_of_le _ _ (UInt64.le_iff_toNat_le.mpr (by
      simp only [UInt64.reduceToNat]; omega))
  have hlength : x.words.length = 7 := rfl
  refine ⟨hlow, hhigh, getWord_putWord (hplaced.cell_end i), ?_, ?_⟩
  · exact hwords.congr (by omega) fun a ha ha' =>
      putWord_rspCell_stack hplaced (j := i) ⟨by omega, by omega⟩
  · rw [← hstack]
    exact stackFrom_congr hplaced hhigh fun a ha ha' =>
      putWord_rspCell_stack hplaced (j := i) ⟨by omega, ha'⟩

/-- The pushes, and the store of the stack pointer: the task's context is saved. -/
theorem save_triple (hplaced : StacksApart l) (hrdi : c.reg .rdi = l.rspCell i)
    (hroom : l.low i + 48 ≤ (c.reg .rsp).toNat) (hcall : (c.reg .rsp).toNat + 8 ≤ l.high i) :
    Triple (Interrupted l)
      (At c.reg [c.top 0] fun mem => OthersSaved l i left mem ∧
        stackFrom l i (c.reg .rsp + 8) mem = (calling l i c).stack)
      [.push .rbp, .push .rbx, .push .r12, .push .r13, .push .r14, .push .r15, .store .rdi .rsp]
      (fun c' => c'.reg = Function.update c.reg .rsp (c.reg .rsp - 48) ∧
        AllSaved l (left ++ [(i, calling l i c)]) c'.mem) := by
  have hend := hplaced.high_lt i
  have htop : (c.reg .rsp + 8).toNat = (c.reg .rsp).toNat + 8 := toNat_add_eight (by omega)
  have hsp : (c.reg .rsp - 48).toNat = (c.reg .rsp).toNat - 48 :=
    UInt64.toNat_sub_of_le _ _ (UInt64.le_iff_toNat_le.mpr (by
      simp only [UInt64.reduceToNat]; omega))
  have hpolite := polite_interrupted hplaced i (c.reg .rsp + 8).toNat (by omega)
  have hdepends : DependsOn (Above l i (c.reg .rsp + 8).toNat) fun mem =>
      OthersSaved l i left mem ∧ stackFrom l i (c.reg .rsp + 8) mem = (calling l i c).stack :=
    fun mem mem' hsame h => ⟨othersSaved_depends hplaced i _ mem mem' hsame h.1,
      stackFrom_depends hplaced i (by omega) (by omega) _ mem mem' hsame h.2⟩
  have hpushes := hpolite.pushes hdepends (by omega) [.rbp, .rbx, .r12, .r13, .r14, .r15] c.reg
    [c.top 0] (by decide)
    (by simp only [List.length_cons, List.length_nil]; omega)
    (by simp only [List.length_cons, List.length_nil]; omega)
  refine Triple.append hpushes (Triple.cons (i := .store .rdi .rsp) (hpolite.stable hdepends
    (by omega) ?_ ?_) (fun c₁ hc₁ => ?_) (Triple.nil fun _ h => h))
  · rw [Function.update_self]
    exact Nat.le_trans (by omega) (Nat.le_of_eq hsp.symm)
  · rw [Function.update_self]
    refine Nat.le_trans (Nat.add_le_add_right (Nat.le_of_eq hsp) _) ?_
    simp only [List.length_append, List.length_reverse, List.length_map, List.length_cons,
      List.length_nil]
    omega
  obtain ⟨hreg, hstack, hothers, hbytes⟩ := hc₁
  refine ⟨hreg, ?_⟩
  have hpointer : c.reg .rsp - 48 = c.reg .rsp + 8 - 56 := by grind
  have hstored : (Instr.run (.store .rdi .rsp) c₁).mem =
      putWord (l.rspCell i) ((calling l i c).rsp - 56) c₁.mem := by
    rw [Instr.run, hreg, Function.update_self, Function.update_of_ne (by decide), hrdi]
    exact congrArg (putWord (l.rspCell i) · c₁.mem) hpointer
  have hwords : Stacked (c.reg .rsp - 48) (calling l i c).words c₁.mem := by
    rw [Function.update_self] at hstack
    exact hstack
  rw [hstored]
  intro j y hy
  rw [latest_concat] at hy
  split at hy
  · rename_i hij
    obtain rfl : i = j := hij
    obtain rfl : calling l i c = y := Option.some.inj hy
    exact savedContext_of_pushed hplaced (show _ ≤ (c.reg .rsp + 8).toNat by omega)
      (show (c.reg .rsp + 8).toNat ≤ _ by omega) (hpointer ▸ hwords) hbytes
  · rename_i hij
    exact (hothers j y (Ne.symm hij) hy).congr hplaced
      (fun a ha => putWord_rspCell_cell hplaced (Ne.symm hij) ha)
      fun a ha _ => putWord_rspCell_stack hplaced ha

/-- Between the two halves every context is in memory, and interrupts leave it there. -/
theorem allSaved_stable (hplaced : StacksApart l) (hlast : latest i left = some x)
    {f : Reg → UInt64} (hsp : f .rsp = x.rsp - 56) :
    Stable (Interrupted l) fun c => c.reg = f ∧ AllSaved l left c.mem := by
  rintro c c' hint ⟨hreg, hsaved⟩
  have hi := hsaved i x hlast
  have hpointer := hi.pointer
  have hlow := hi.low
  have hhigh := hi.high
  have hmem := hint.mem i (by rw [hreg, hsp]; omega) (by rw [hreg, hsp]; omega)
  rw [hreg, hsp] at hmem
  refine ⟨hint.reg.trans hreg, fun j y hy => ?_⟩
  by_cases hij : j = i
  · subst hij
    obtain rfl : x = y := Option.some.inj (hlast.symm.trans hy)
    exact hi.congr hplaced (fun a ha => hmem a (Or.inl ⟨j, Or.inl ha⟩)) fun a ha ha' =>
      hmem a (Or.inr ⟨ha, by omega⟩)
  · exact (hsaved j y hy).others hplaced hij fun a ha => hmem a (Or.inl ha)

/-- The memory that a task's context is in, as its stack is loaded from it. -/
def Leaving (l : Stacks) (left : List (Fin maxTasks × Context)) (next : Fin maxTasks) (x : Context)
    (mem : UInt64 → UInt8) : Prop :=
  OthersSaved l next left mem ∧ stackFrom l next x.rsp mem = x.stack

theorem leaving_depends (hplaced : StacksApart l) (hlow : l.low next ≤ x.rsp.toNat)
    (hhigh : x.rsp.toNat ≤ l.high next) :
    DependsOn (Above l next x.rsp.toNat) (Leaving l left next x) := fun mem mem' hsame h =>
  ⟨othersSaved_depends hplaced next _ mem mem' hsame h.1,
    stackFrom_depends hplaced next hlow hhigh _ mem mem' hsame h.2⟩

/-- The return, with nothing left on the stack but the address. -/
theorem ret_triple (hplaced : StacksApart l) (hlow : l.low next + 8 ≤ x.rsp.toNat)
    (hhigh : x.rsp.toNat ≤ l.high next) {g : Reg → UInt64} (hsp : g .rsp = x.rsp - 8)
    (hregs : ∀ r ∈ [Reg.r15, .r14, .r13, .r12, .rbx, .rbp], g r = x.reg r) :
    Triple (Interrupted l) (At g [x.rip] (Leaving l left next x)) [.ret]
      (fun c' => running l next c' = x ∧ OthersSaved l next left c'.mem) := by
  have hend := hplaced.high_lt next
  have hpointer : (x.rsp - 8).toNat = x.rsp.toNat - 8 := toNat_sub_eight (by omega)
  have hpolite := polite_interrupted hplaced next _ hhigh
  refine Triple.cons (hpolite.stable (leaving_depends hplaced (by omega) hhigh) (by omega)
    (by rw [hsp]; omega) (by rw [hsp]; simp only [List.length_singleton]; omega))
    (fun c hc => ?_) (Triple.nil fun _ h => h)
  obtain ⟨hreg, ⟨htop, -⟩, hothers, hstack⟩ := hc
  have hback : c.reg .rsp + 8 = x.rsp := by rw [hreg, hsp, UInt64.sub_add_cancel]
  have hret : (Instr.ret.run c).reg = Function.update c.reg .rsp (c.reg .rsp + 8) := rfl
  have hkept : ∀ r ∈ [Reg.r15, .r14, .r13, .r12, .rbx, .rbp],
      (Instr.ret.run c).reg r = x.reg r := by
    intro r hr
    rw [← hregs r hr, ← hreg, hret]
    exact Function.update_of_ne (by rintro rfl; exact absurd hr (by decide)) _ _
  have hrsp : (Instr.ret.run c).reg .rsp = x.rsp := by rw [hret, Function.update_self, hback]
  have hrip : (Instr.ret.run c).rip = x.rip := by
    rw [Instr.run, Cpu.top, UInt64.mul_zero, UInt64.add_zero, hreg]
    exact htop
  have hmem : (Instr.ret.run c).mem = c.mem := rfl
  refine ⟨?_, hothers⟩
  rw [running, hrip, hrsp, hmem, hstack, hkept .r15 (by decide), hkept .r14 (by decide),
    hkept .r13 (by decide), hkept .r12 (by decide), hkept .rbx (by decide), hkept .rbp (by decide)]
  rfl

/-- The load of the stack pointer, the pops and the return: a saved context runs. -/
theorem load_triple (hplaced : StacksApart l) {old : Context} (hold : latest i left = some old)
    (hnext : latest next left = some x) {f : Reg → UInt64} (hsp : f .rsp = old.rsp - 56)
    (hrsi : f .rsi = l.rspCell next) :
    Triple (Interrupted l) (fun c => c.reg = f ∧ AllSaved l left c.mem)
      [.load .rsp .rsi, .pop .r15, .pop .r14, .pop .r13, .pop .r12, .pop .rbx, .pop .rbp, .ret]
      (fun c' => running l next c' = x ∧ OthersSaved l next left c'.mem) := by
  intro c c' hc hrun
  have hx := hc.2 next x hnext
  have hlow := hx.low
  have hhigh := hx.high
  have hpointer := hx.pointer
  have hend := hplaced.high_lt next
  let g := Function.update f .rsp (x.rsp - 56)
  have hg : (g .rsp).toNat = x.rsp.toNat - 56 := by
    rw [show g .rsp = _ from Function.update_self .., hpointer]
  have hdepends : DependsOn (Above l next x.rsp.toNat) (Leaving l left next x) :=
    leaving_depends hplaced (by omega) hhigh
  have hne : [x.rip] ≠ [] := List.cons_ne_nil _ _
  have hpops := (polite_interrupted hplaced next _ hhigh).pops hdepends (by omega)
    [.r15, .r14, .r13, .r12, .rbx, .rbp] g (g := x.reg) (by decide) (by omega)
    (by simp only [List.length_cons, List.length_nil]; omega) hne
  have hback : popped [.r15, .r14, .r13, .r12, .rbx, .rbp] x.reg g .rsp = x.rsp - 8 := by
    rw [popped, if_pos rfl, show g .rsp = _ from Function.update_self .., List.length_cons]
    rw [show (8 : UInt64) * UInt64.ofNat _ = 48 from rfl]
    grind
  have hret : Triple (Interrupted l) _ _ fun c' => running l next c' = x ∧
      OthersSaved l next left c'.mem :=
    ret_triple hplaced (by omega) hhigh hback fun r hr => by
      rw [popped, if_neg (by rintro rfl; exact absurd hr (by decide)), if_pos hr]
  refine Triple.cons (allSaved_stable hplaced hold hsp) ?_ (hpops.append hret) c c' hc hrun
  rintro c ⟨hreg, hsaved⟩
  have hx := hsaved next x hnext
  refine ⟨?_, ?_, fun j y _ hy => hsaved j y hy, hx.stack⟩
  · rw [Instr.run, Cpu.setReg, hreg, hrsi, hx.cell]
  · rw [show g .rsp = _ from Function.update_self ..]
    exact hx.saved

/-- **One switch.** The context it leaves is kept, and the one it goes to runs. -/
theorem Switches.resumes (hplaced : StacksApart l) (h : Switches l i next c c')
    (hsaved : OthersSaved l i left c.mem)
    (hnext : latest next (left ++ [(i, calling l i c)]) = some x) :
    running l next c' = x ∧ OthersSaved l next (left ++ [(i, calling l i c)]) c'.mem := by
  have hlast : latest i (left ++ [(i, calling l i c)]) = some (calling l i c) := by
    rw [latest_concat, if_pos rfl]
  have hpointer : c.reg .rsp - 48 = c.reg .rsp + 8 - 56 := by grind
  have hload := load_triple (f := Function.update c.reg .rsp (c.reg .rsp - 48)) hplaced hlast hnext
    ((Function.update_self ..).trans hpointer) ((Function.update_of_ne (by decide) _ _).trans h.new)
  refine ((save_triple hplaced h.old h.room h.call).append hload) c c' ⟨rfl, ⟨?_, trivial⟩, hsaved,
    rfl⟩ h.run
  rw [Cpu.top, UInt64.mul_zero, UInt64.add_zero]

end

/-! ## The slots of the table

A spawn clears the whole slot and writes a first context at the top of its stack, with the registers
zero and the trampoline for an address to go on at. So a new task is resumed like any other.
-/

section
variable {l : Stacks} {i j : Fin maxTasks} {mem : UInt64 → UInt8}

def InTask (l : Stacks) (i : Fin maxTasks) (a : UInt64) : Prop :=
  (l.task i).toNat ≤ a.toNat ∧ a.toNat < (l.task i).toNat + taskSize

theorem StacksApart.task_end (h : StacksApart l) (i : Fin maxTasks) :
    (l.task i).toNat + 16528 ≤ 2 ^ 64 := by
  have hi : i.val < 8 := i.isLt
  have hfits : l.tasks.toNat + 16528 * 8 ≤ 2 ^ 64 := h.fits
  rw [h.task_toNat]
  omega

/-- What is kept of one task does not lie in another slot. -/
theorem StacksApart.not_inTask (h : StacksApart l) (hij : j ≠ i) {a : UInt64}
    (ha : InCell l j a ∨ OnStack l j a) : ¬ InTask l i a := by
  have hsize : taskSize = 16528 := rfl
  have hne : j.val ≠ i.val := fun heq => hij (Fin.ext heq)
  have hlti : i.val < 8 := i.isLt
  have hltj : j.val < 8 := j.isLt
  have htask := h.task_toNat i
  intro hin
  simp only [InTask, hsize] at hin
  rcases ha with ha | ha
  · have hcell := h.rspCell_toNat j
    simp only [InCell] at ha
    omega
  · have hapart := h.boot
    simp only [OnStack] at ha
    by_cases hj : j = 0
    · have hboot : l.low 0 = l.bootLow ∧ l.high 0 = l.bootHigh := ⟨rfl, rfl⟩
      have hzero : j.val = 0 := congrArg Fin.val hj
      rw [hj] at ha
      omega
    · have hbounds := h.bounds hj
      omega

theorem clearTask_other (hplaced : StacksApart l) {a : UInt64} (ha : ¬ InTask l i a) :
    clearTask l i mem a = mem a := by
  have hend := hplaced.task_end i
  have hsize : taskSize = 16528 := rfl
  simp only [InTask] at ha
  rw [clearTask, putBytes_at (by rw [List.length_replicate, hsize]; exact hend),
    List.length_replicate, if_neg ha]

theorem clearZombies_other {α : Type} (hplaced : StacksApart l) {s : Sched α} {a : UInt64}
    (ha : ∀ i, i ≠ 0 → s.state i = some .zombie → ¬ InTask l i a) :
    clearZombies l s mem a = mem a := by
  have hfold : ∀ (slots : List (Fin maxTasks)) (mem : UInt64 → UInt8),
      (∀ i ∈ slots, ¬ InTask l i a) →
      slots.foldl (fun mem i => clearTask l i mem) mem a = mem a := by
    intro slots
    induction slots with
    | nil => exact fun _ _ => rfl
    | cons i slots ih =>
      intro mem hslots
      rw [List.foldl_cons, ih _ fun j hj => hslots j (List.mem_cons_of_mem _ hj),
        clearTask_other hplaced (hslots i List.mem_cons_self)]
  refine hfold _ mem fun i hi => ?_
  obtain ⟨hmem, hzombie⟩ := List.mem_filter.mp hi
  refine ha i ?_ (Sched.isZombie_iff.mp hzombie)
  rintro rfl
  exact absurd hmem (by decide)

/-- A new task's stack pointer is 56 below the top. -/
theorem spawnStack_pointer (hplaced : StacksApart l) (hi : i ≠ 0) (trampoline : UInt64)
    (mem : UInt64 → UInt8) :
    (UInt64.ofNat (l.high i)).toNat = l.high i ∧
      (pushWords [trampoline, 0, 0, 0, 0, 0, 0] (UInt64.ofNat (l.high i)) mem).1 =
        UInt64.ofNat (l.high i) - 56 := by
  have hend := hplaced.high_lt i
  have hbounds := hplaced.bounds hi
  have hhigh : (UInt64.ofNat (l.high i)).toNat = l.high i := by
    rw [UInt64.toNat_ofNat', Nat.mod_eq_of_lt hend]
  refine ⟨hhigh, UInt64.toNat_inj.mp ?_⟩
  rw [pushWords_pointer _ _ _ (by rw [hhigh]; simp only [List.length_cons, List.length_nil]; omega),
    UInt64.toNat_sub_of_le _ _ (UInt64.le_iff_toNat_le.mpr (by
      rw [hhigh]; simp only [UInt64.reduceToNat]; omega))]
  rfl

/-- A spawn writes to the slot it takes, and nowhere else. -/
theorem spawnStack_other (hplaced : StacksApart l) (hi : i ≠ 0) {trampoline a : UInt64}
    (ha : ¬ InTask l i a) : spawnStack l trampoline i mem a = mem a := by
  have hsize : taskSize = 16528 := rfl
  have htask := hplaced.task_toNat i
  have hcell := hplaced.rspCell_toNat i
  have hbounds := hplaced.bounds hi
  obtain ⟨hhigh, -⟩ := spawnStack_pointer hplaced hi trampoline mem
  have hout := ha
  simp only [InTask, hsize] at hout
  rw [spawnStack, putWord_other (hplaced.cell_end i) (by omega), pushWords_other _ _ _
    (by rw [hhigh]; simp only [List.length_cons, List.length_nil]; omega)
    (by rw [hhigh]; simp only [List.length_cons, List.length_nil]; omega)]
  exact clearTask_other hplaced ha

/-- **A new task** has the context it starts in. -/
theorem spawnStack_saved (hplaced : StacksApart l) (hi : i ≠ 0) (trampoline : UInt64) :
    SavedContext l i (starting l trampoline i) (spawnStack l trampoline i mem) := by
  have hbounds := hplaced.bounds hi
  obtain ⟨hhigh, hpointer⟩ := spawnStack_pointer hplaced hi trampoline (clearTask l i mem)
  have hrsp : (starting l trampoline i).rsp = UInt64.ofNat (l.high i) := rfl
  have hpushed := Stacked.pushWords [trampoline, 0, 0, 0, 0, 0, 0] [] (UInt64.ofNat (l.high i))
    (clearTask l i mem) (by rw [hhigh]; simp only [List.length_cons, List.length_nil]; omega)
    (by rw [List.length_nil]; exact (UInt64.ofNat (l.high i)).toNat_lt.le) trivial
  rw [hpointer] at hpushed
  have hsaved := savedContext_of_pushed (i := i) (x := starting l trampoline i) hplaced
    (by rw [hrsp]; omega) (by rw [hrsp]; omega) hpushed (by
      rw [hrsp, stackFrom, hhigh, Nat.sub_self]
      rfl)
  rw [hrsp, ← hpointer] at hsaved
  exact hsaved

end

/-! ## Tasks that run

The steps are those of the table and the processor together: code runs, a call changes the table
with no switch, a task is spawned, or the table changes and `context_switch` is run. `left` is a log
of what was left when, and the context of a task is the last one under its slot.
-/

/-- The table and the processor below it, and each task's context as it was last left. -/
structure Tasking where
  sched : Sched Unit
  cpu : Cpu
  left : List (Fin maxTasks × Context)

/-- What the kernel does, as far as the stacks go. -/
inductive TaskingStep (l : Stacks) (trampoline : UInt64) : Tasking → Tasking → Prop
  /-- The current task runs: it may do anything, but for what is not for it to write. -/
  | work {s : Tasking} {cpu : Cpu}
      (hmem : ∀ a, Guarded l s.sched.current a → cpu.mem a = s.cpu.mem a) :
      TaskingStep l trampoline s { s with cpu }
  | spawn {s : Tasking} {i : Fin maxTasks} (hslot : s.sched.freeSlot = some i) :
      TaskingStep l trampoline s
        ⟨(s.sched.spawn ()).2, { s.cpu with mem := spawnStack l trampoline i s.cpu.mem },
          s.left ++ [(i, starting l trampoline i)]⟩
  | prepareReplay {s : Tasking} :
      TaskingStep l trampoline s
        { s with
          sched := s.sched.prepareReplay
          cpu := { s.cpu with mem := clearZombies l s.sched s.cpu.mem }
          left := s.left.filter fun e => !s.sched.isZombie e.1 }
  /-- `switch_to`, from `sched_yield` or from `task_exit`. -/
  | switch {s : Tasking} {op : SchedOp Unit} {next : Fin maxTasks} {t : Sched Unit} {cpu : Cpu}
      (henabled : op.Enabled s.sched) (hdispatch : op.dispatches s.sched = some (next, t))
      (hswitch : Switches l s.sched.current next s.cpu cpu) :
      TaskingStep l trampoline s
        ⟨op.run s.sched, cpu, s.left ++ [(s.sched.current, calling l s.sched.current s.cpu)]⟩

/-- What is reached from `sched_init` on. -/
inductive TaskingReaches (l : Stacks) (trampoline : UInt64) : Tasking → Prop
  | init (cpu : Cpu) : TaskingReaches l trampoline ⟨schedInit (), cpu, []⟩
  | step {s s' : Tasking} (h : TaskingReaches l trampoline s)
      (hstep : TaskingStep l trampoline s s') : TaskingReaches l trampoline s'

/-- The task that runs is the table's, and the others' contexts are in memory. -/
structure Resumable (l : Stacks) (s : Tasking) : Prop where
  consistent : s.sched.Consistent
  left : ∀ j, s.sched.state j = some .ready → (latest j s.left).isSome = true
  saved : OthersSaved l s.sched.current s.left s.cpu.mem

section
variable {l : Stacks} {trampoline : UInt64} {s s' : Tasking}

theorem Resumable.spawn (hplaced : StacksApart l) (h : Resumable l s) {i : Fin maxTasks}
    (hslot : s.sched.freeSlot = some i) :
    Resumable l ⟨(s.sched.spawn ()).2, { s.cpu with mem := spawnStack l trampoline i s.cpu.mem },
      s.left ++ [(i, starting l trampoline i)]⟩ where
  consistent := h.consistent.spawn ()
  left j hj := by
    rw [latest_concat]
    split
    · rfl
    · rename_i hij
      rw [Sched.state_spawn hslot, if_neg (Ne.symm hij)] at hj
      exact h.left j hj
  saved j x hne hx := by
    obtain ⟨hi, -⟩ := Sched.freeSlot_free hslot
    have hcurrent : (s.sched.spawn ()).2.current = s.sched.current := by
      simp only [Sched.spawn, hslot]
    rw [latest_concat] at hx
    split at hx
    · rename_i hij
      obtain rfl : i = j := hij
      obtain rfl : starting l trampoline i = x := Option.some.inj hx
      exact spawnStack_saved hplaced hi trampoline
    · rename_i hij
      rw [hcurrent] at hne
      exact (h.saved j x hne hx).congr hplaced
        (fun a ha => spawnStack_other hplaced hi (hplaced.not_inTask (Ne.symm hij) (Or.inl ha)))
        fun a ha _ => spawnStack_other hplaced hi (hplaced.not_inTask (Ne.symm hij) (Or.inr ha))

theorem Resumable.prepareReplay (hplaced : StacksApart l) (h : Resumable l s) :
    Resumable l
      { s with
        sched := s.sched.prepareReplay
        cpu := { s.cpu with mem := clearZombies l s.sched s.cpu.mem }
        left := s.left.filter fun e => !s.sched.isZombie e.1 } where
  consistent := h.consistent.prepareReplay
  left j hj := by
    rw [Sched.state_prepareReplay] at hj
    split at hj
    · cases hj
    · have hzombie : s.sched.isZombie j = false :=
        Bool.eq_false_iff.mpr fun hz => by
          rw [Sched.isZombie_iff.mp hz] at hj
          cases hj
      rw [latest_filter fun i => !s.sched.isZombie i, hzombie]
      exact h.left j hj
  saved j x hne hx := by
    rw [latest_filter fun i => !s.sched.isZombie i] at hx
    split at hx
    · rename_i hzombie
      have hout : ∀ a, InCell l j a ∨ OnStack l j a →
          clearZombies l s.sched s.cpu.mem a = s.cpu.mem a := by
        refine fun a ha => clearZombies_other hplaced fun i _ hz => hplaced.not_inTask ?_ ha
        rintro rfl
        rw [Sched.isZombie_iff.mpr hz] at hzombie
        cases hzombie
      exact (h.saved j x hne hx).congr hplaced (fun a ha => hout a (Or.inl ha))
        fun a ha _ => hout a (Or.inr ha)
    · cases hx

/-- What `switch_to` does to the table, whoever calls it. -/
theorem dispatches_switchTo (h : s.sched.Consistent) {op : SchedOp Unit} {next : Fin maxTasks}
    {t : Sched Unit} (henabled : op.Enabled s.sched)
    (hdispatch : op.dispatches s.sched = some (next, t)) :
    op.run s.sched = t.switchTo next ∧ t.current = s.sched.current ∧ next ≠ s.sched.current ∧
      t.state next = some .ready ∧ ∀ j, j ≠ s.sched.current → t.state j = s.sched.state j := by
  cases op with
  | yield =>
    obtain ⟨i, hi, heq⟩ := Option.map_eq_some_iff.mp hdispatch
    cases heq
    have hne := h.found_ne hi
    refine ⟨?_, rfl, hne, Sched.isReady_iff.mp (Sched.findNextReady_ready hi), fun _ _ => rfl⟩
    rw [SchedOp.run, Sched.yield, hi]
    exact if_neg hne
  | exit halted =>
    obtain ⟨i, hi, heq⟩ := Option.map_eq_some_iff.mp hdispatch
    cases heq
    obtain ⟨found, hfound, hne⟩ := h.exit_found henabled halted
    obtain rfl : found = next := Option.some.inj (hfound.symm.trans hi)
    refine ⟨?_, rfl, hne, Sched.isReady_iff.mp (Sched.findNextReady_ready hi), fun j hj => ?_⟩
    · rw [SchedOp.run, Sched.taskExit, Sched.yield, hi]
      exact if_neg hne
    · rw [Sched.state_retire, if_neg hj]
  | spawn => cases hdispatch
  | tick => cases hdispatch
  | prepareReplay => cases hdispatch

/-- **A switch** goes on with what was left. -/
theorem Resumable.switch (hplaced : StacksApart l) (h : Resumable l s) {op : SchedOp Unit}
    {next : Fin maxTasks} {t : Sched Unit} {cpu : Cpu} (henabled : op.Enabled s.sched)
    (hdispatch : op.dispatches s.sched = some (next, t))
    (hswitch : Switches l s.sched.current next s.cpu cpu) :
    Resumable l
        ⟨op.run s.sched, cpu, s.left ++ [(s.sched.current, calling l s.sched.current s.cpu)]⟩ ∧
      latest next s.left = some (running l next cpu) := by
  obtain ⟨hrun, hcurrent, hne, hready, hothers⟩ :=
    dispatches_switchTo h.consistent henabled hdispatch
  obtain ⟨x, hx⟩ := Option.isSome_iff_exists.mp (h.left next (hothers next hne ▸ hready))
  have hnext : latest next (s.left ++ [(s.sched.current, calling l s.sched.current s.cpu)]) =
      some x := by
    rw [latest_concat, if_neg (Ne.symm hne), hx]
  obtain ⟨hresumed, hsaved⟩ := hswitch.resumes hplaced h.saved hnext
  have hrunning : (op.run s.sched).current = next := by
    rw [hrun]
    rfl
  refine ⟨⟨Consistent.step h.consistent op henabled, fun j hj => ?_, ?_⟩, hresumed ▸ hx⟩
  · rw [latest_concat]
    split
    · rfl
    · rename_i hcur
      have hjnext : j ≠ next := by
        rintro rfl
        rw [hrun, Sched.state_switchTo, if_pos rfl, hready] at hj
        cases hj
      rw [hrun, Sched.state_switchTo, if_neg hjnext, hcurrent, if_neg (Ne.symm hcur),
        hothers j (Ne.symm hcur)] at hj
      exact h.left j hj
  · rw [hrunning]
    exact hsaved

theorem TaskingStep.resumable (hplaced : StacksApart l) (h : Resumable l s)
    (hstep : TaskingStep l trampoline s s') : Resumable l s' := by
  cases hstep with
  | work hmem =>
    exact ⟨h.consistent, h.left, fun j x hne hx => (h.saved j x hne hx).others hplaced hne hmem⟩
  | spawn hslot => exact h.spawn hplaced hslot
  | prepareReplay => exact h.prepareReplay hplaced
  | switch henabled hdispatch hswitch => exact (h.switch hplaced henabled hdispatch hswitch).1

theorem TaskingReaches.resumable (hplaced : StacksApart l) (h : TaskingReaches l trampoline s) :
    Resumable l s := by
  induction h with
  | init cpu =>
    refine ⟨Sched.Consistent.init (), fun j hj => ?_, fun j x _ hx => ?_⟩
    · rw [Sched.state, schedInit] at hj
      dsimp only at hj
      split at hj <;> cases hj
    · cases hx
  | step _ hstep ih => exact hstep.resumable hplaced ih

/-- **Every switch of every run resumes** the task it goes to: it finds the registers a call
    keeps, its stack pointer, all of its stack and the place to go on at as they were when it
    was last left, or as they are laid out for a new task.

    `hplaced` is where the linker and the boot loader have put things, as in `linkedStacks`. `h` is
    any run from `sched_init`, in which a task that runs may write anywhere but to the stacks and
    the saved stack pointers of the others. `henabled` and `hdispatch` are a call that leads to a
    switch, and `hswitch` is the run of `context_switch` it makes: called with the two cells, on a
    stack with room for the six registers, and cut into by any handlers. -/
theorem context_switch_resumes (hplaced : StacksApart l) (h : TaskingReaches l trampoline s)
    {op : SchedOp Unit} {next : Fin maxTasks} {t : Sched Unit} {cpu : Cpu}
    (henabled : op.Enabled s.sched) (hdispatch : op.dispatches s.sched = some (next, t))
    (hswitch : Switches l s.sched.current next s.cpu cpu) :
    latest next s.left = some (running l next cpu) :=
  ((h.resumable hplaced).switch hplaced henabled hdispatch hswitch).2

end

/-! A task is spawned and switched to, where the linker has put things. The boot loader's stack
ends at `0x9f000`, inside `tasks[0]`, and its first 472 bytes lie in `tasks[0].stack`. -/

def linkedStacks : Stacks := ⟨0x9edc0, 0x9ee28, 0x9f000⟩

theorem linkedStacks_apart : StacksApart linkedStacks :=
  ⟨by decide, by decide, Or.inr (Or.inr (by decide))⟩

/-- The shell is about to call `context_switch` for the task in slot 1. -/
def sampleCpu : Cpu where
  reg r := if r = .rsp then 0x9eff0 else if r = .rdi then linkedStacks.rspCell 0
    else if r = .rsi then linkedStacks.rspCell 1 else 7
  seg _ := 0x20
  rip := 0x10260
  rflags := 0x202
  mem _ := 0

theorem context_switch_resumes_new :
    ∃ cpu, running linkedStacks 1 cpu = starting linkedStacks 0x1027b 1 := by
  let cpu := { sampleCpu with mem := spawnStack linkedStacks 0x1027b 1 sampleCpu.mem }
  have hslot : (schedInit ()).freeSlot = some 1 := by decide
  have hreaches : TaskingReaches linkedStacks 0x1027b
      ⟨((schedInit ()).spawn ()).2, cpu, [(1, starting linkedStacks 0x1027b 1)]⟩ :=
    (TaskingReaches.init sampleCpu).step (.spawn hslot)
  have hswitch : Switches linkedStacks 0 1 cpu (exec contextSwitch cpu) := by
    refine ⟨rfl, rfl, by decide, by decide, Runs.uncut (fun c => ⟨rfl, rfl, rfl, rfl, ?_⟩) _ _⟩
    exact fun _ _ _ _ _ => rfl
  have hready : ((schedInit ()).spawn ()).2.findNextReady = some 1 := by decide
  have hdispatch : SchedOp.yield.dispatches ((schedInit ()).spawn ()).2 =
      some (1, ((schedInit ()).spawn ()).2) := by rw [SchedOp.dispatches, hready, Option.map_some]
  have henabled : SchedOp.yield.Enabled ((schedInit ()).spawn ()).2 := trivial
  have hresumes :=
    context_switch_resumes linkedStacks_apart hreaches henabled hdispatch hswitch
  exact ⟨_, (Option.some.inj hresumes).symm⟩

end Proof
end BumbelBee
