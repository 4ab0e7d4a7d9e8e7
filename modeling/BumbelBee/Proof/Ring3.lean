import BumbelBee.Proof.Transparent

/-!
# Ring 3 is a call

`usermode_enter` leaves the kernel through an `iretq`, and comes back from inside a system call.
To its caller it is a call like any other (`usermode_returns`): however long ring 3 runs, and
however often it is interrupted or asks for something, the exit finds the kernel's stack as it
was left, and goes on behind the call.

What makes this delicate is that nothing of the way back is in a register. The kernel's
registers are on its stack, the stack's pointer is in `usermode_state.kernel_rsp`, and every
interrupt of ring 3 looks up `kernel_tss.rsp0` for the stack to come in on. Stage 2 has mapped
all three writable for ring 3, so the theorem cannot be had for arbitrary code: `Grounds.Kept`
is what ring 3 and the handlers have to leave alone, and nothing else is asked of either. The
descriptor tables and the kernel's code are not in memory here, and so are never written over.
Behind the pushes of `usermode_enter` everything that is needed lies in memory (`Saved`); that is
the invariant, and it depends on the bytes of `Kept` only.
-/

namespace BumbelBee
namespace Proof

open Lib Lib.X86 Kernel

/-- What a C function hands back. -/
def calleeSaved : List Reg := [.r15, .r14, .r13, .r12, .rbx, .rbp]

/-- What `usermode_enter` leaves behind for the way back. -/
def kernelWords (c : Cpu) : List UInt64 := calleeSaved.map c.reg ++ [c.top 0]

section
variable {c c₁ : Cpu}

/-- At the call of `usermode_record_kernel_rsp`. -/
theorem exec_usermodeEnter (hroom : 64 ≤ (c.reg .rsp).toNat)
    (hend : (c.reg .rsp).toNat + 8 ≤ 2 ^ 64) :
    let c₁ := exec usermodeEnter c
    c₁.reg .rsp = c.reg .rsp - 64 ∧ c₁.reg .rdi = c.reg .rsp - 48 ∧
      Stacked (c₁.reg .rsp) (c.reg .rsi :: c.reg .rdi :: kernelWords c) c₁.mem ∧
      ∀ a : UInt64, ¬ ((c.reg .rsp).toNat - 64 ≤ a.toNat ∧ a.toNat < (c.reg .rsp).toNat) →
        c₁.mem a = c.mem a := by
  let rs : List Reg := [.rbp, .rbx, .r12, .r13, .r14, .r15, .rdi, .rsi]
  have hexec : exec usermodeEnter c =
      (Instr.mov .rdi .rax).run ((Instr.lea .rax .rsp 16).run (c.pushAll (rs.map c.reg))) := by
    rw [← exec_pushes rs c (by decide)]
    rfl
  have hrsp : (c.pushAll (rs.map c.reg)).reg .rsp = c.reg .rsp - 64 :=
    (Cpu.pushAll_rsp ..).trans (pushWords_fst ..)
  have hstacked := Stacked.pushWords (rs.map c.reg) [c.top 0] (c.reg .rsp) c.mem hroom hend
    ⟨by rw [Cpu.top, UInt64.mul_zero, UInt64.add_zero], trivial⟩
  let d := c.pushAll (rs.map c.reg)
  have hsp : (exec usermodeEnter c).reg .rsp = d.reg .rsp := by
    rw [hexec]
    rfl
  have hrdi : (exec usermodeEnter c).reg .rdi = d.reg .rsp + 16 := by
    rw [hexec]
    rfl
  have hmem : (exec usermodeEnter c).mem = d.mem := by
    rw [hexec]
    rfl
  refine ⟨hsp.trans hrsp, ?_, ?_, fun a ha => ?_⟩
  · rw [hrdi, hrsp]
    grind
  · rw [hsp, hmem, Cpu.pushAll_rsp]
    exact hstacked
  · rw [hmem]
    exact pushWords_other (rs.map c.reg) _ _ hroom ha

/-- Into ring 3, with what `usermode_enter` was called with. -/
theorem exec_usermodeIret {entry userStack : UInt64} {ws : List UInt64}
    (hroom : 24 ≤ (c.reg .rsp).toNat) (hend : (c.reg .rsp).toNat + 16 < 2 ^ 64)
    (h : Stacked (c.reg .rsp) (userStack :: entry :: ws) c.mem) :
    let c' := exec usermodeIret c
    c'.rip = entry ∧ c'.reg .rsp = userStack ∧ c'.privilege = 3 ∧ c'.rflags = 0x202 ∧
      ∀ a : UInt64, ¬ ((c.reg .rsp).toNat - 24 ≤ a.toNat ∧ a.toNat < (c.reg .rsp).toNat + 16) →
        c'.mem a = c.mem a := by
  let g : Reg → UInt64 := fun r => if r = .rsi then userStack else entry
  obtain ⟨hpops, -⟩ := exec_pops [.rsi, .rdi] c (by decide)
    (show Stacked _ ([Reg.rsi, .rdi].map g ++ ws) _ from h)
  let c₁ : Cpu := { c with reg := popped [.rsi, .rdi] g c.reg }
  let words : List UInt64 := [0x33, userStack, 0x202, 0x2b, entry]
  have hexec : exec usermodeIret c = Instr.iretq.run (c₁.pushAll words) := by
    rw [show usermodeIret = [Reg.rsi, .rdi].map .pop ++ usermodeIret.drop 2 from rfl, exec_append,
      hpops, Cpu.pushAll_cons, Cpu.pushAll_cons, Cpu.pushAll_cons, Cpu.pushAll_cons,
      Cpu.pushAll_cons, Cpu.pushAll_nil]
    rfl
  have hsp : c₁.reg .rsp = c.reg .rsp + 16 := rfl
  have hspNat : (c₁.reg .rsp).toNat = (c.reg .rsp).toNat + 16 := by
    rw [hsp, UInt64.toNat_add]
    exact Nat.mod_eq_of_lt hend
  have hstacked := Stacked.pushWords words [] (c₁.reg .rsp) c₁.mem (show 40 ≤ _ by omega)
    (show _ + 0 ≤ _ by omega) trivial
  have hiret := run_iretq (c := c₁.pushAll words) (by rw [Cpu.pushAll_rsp]; exact hstacked)
  dsimp only
  rw [hexec, hiret]
  refine ⟨rfl, rfl, show (0x2b : UInt64).toUInt16 &&& 3 = 3 by decide, rfl, fun a ha => ?_⟩
  exact pushWords_other words _ _ (show 40 ≤ _ by omega) (show ¬ (_ - 40 ≤ _ ∧ _) by omega)

/-- Back in the kernel, on the stack the words are on. -/
theorem exec_usermodeLeaveToKernel {saved : Reg → UInt64} {back : UInt64}
    (h : Stacked (c.reg .rdi) (calleeSaved.map saved ++ [back]) c.mem) :
    let c' := exec usermodeLeaveToKernel c
    (∀ r ∈ calleeSaved, c'.reg r = saved r) ∧ c'.reg .rsp = c.reg .rdi + 56 ∧ c'.rip = back ∧
      (∀ s ∈ [Seg.ds, .es, .fs, .gs], c'.seg s = gdtKernelDataSelector) ∧
      c'.rflags &&& flagIf = flagIf ∧ c'.mem = c.mem := by
  let c₁ := exec (usermodeLeaveToKernel.take 6) c
  have hexec : exec usermodeLeaveToKernel c =
      Instr.ret.run (Instr.sti.run (exec (calleeSaved.map .pop) c₁)) := rfl
  have hstack : Stacked (c₁.reg .rsp) (calleeSaved.map saved ++ [back]) c₁.mem := h
  obtain ⟨hpops, hback, -⟩ := exec_pops calleeSaved c₁ (by decide) hstack
  let f := popped calleeSaved saved c₁.reg
  have hreg : (exec usermodeLeaveToKernel c).reg = Function.update f .rsp (f .rsp + 8) := by
    rw [hexec, hpops]
    rfl
  have hsp : f .rsp = c.reg .rdi + 48 := rfl
  refine ⟨fun r hr => ?_, ?_, ?_, ?_, ?_, ?_⟩
  · have hne : r ≠ .rsp := by
      rintro rfl
      exact absurd hr (by decide)
    rw [hreg, Function.update_of_ne hne, show f r = saved r from (if_neg hne).trans (if_pos hr)]
  · rw [hreg, Function.update_self, hsp]
    grind
  · have hrip : (exec usermodeLeaveToKernel c).rip = getWord (f .rsp + 8 * 0) c₁.mem := by
      rw [hexec, hpops]
      rfl
    rw [hrip, UInt64.mul_zero, UInt64.add_zero]
    exact hback
  · have hax := movAx_toUInt16 (c.reg .rax) gdtKernelDataSelector
    have hseg : (exec usermodeLeaveToKernel c).seg = c₁.seg := by
      rw [hexec, hpops]
      rfl
    rw [hseg]
    intro s hs
    simp only [List.mem_cons, List.not_mem_nil, or_false] at hs
    rcases hs with rfl | rfl | rfl | rfl <;> exact hax
  · rw [hexec, hpops]
    exact sti_flagIf _
  · rw [hexec, hpops]
    rfl

end

/-! ## Runs in ring 3

What runs there is any code at all, as far as the registers go. It is interrupted at any place, by
any vector that can come up in ring 3, and comes back with whatever `rax` and whatever memory the
handlers leave, outside of what is kept.
-/

/-- The word at an address. -/
def InWord (addr a : UInt64) : Prop := addr.toNat ≤ a.toNat ∧ a.toNat < addr.toNat + 8

/-- Where things are while ring 3 runs. -/
structure Grounds where
  /-- `&kernel_tss` -/
  tss : UInt64
  isrStubTable : UInt8 → UInt64
  isrStub128 : UInt64
  /-- `&usermode_state.kernel_rsp` -/
  kernelRsp : UInt64
  /-- `privilege_stack + sizeof(privilege_stack)` -/
  rsp0 : UInt64
  /-- The lowest address of the stack that `usermode_enter` is called on. -/
  stackLow : Nat
  /-- The stack pointer at the call. -/
  sp : UInt64

namespace Grounds

variable (k : Grounds)

def tables : Tables := kernelTables k.tss k.isrStubTable k.isrStub128

/-- The kernel's stack from its saved registers up to the return address, and the two words that
    lead to a stack. -/
def Kept (a : UInt64) : Prop :=
  (k.sp.toNat - 48 ≤ a.toNat ∧ a.toNat < k.sp.toNat + 8) ∨
    InWord k.kernelRsp a ∨ InWord (k.tss + tssRsp0) a

/-- There is room on both stacks, and the stacks and the two words lie apart. -/
structure Apart : Prop where
  room : k.stackLow + 88 ≤ k.sp.toNat
  spEnd : k.sp.toNat + 8 ≤ 2 ^ 64
  entryRoom : 192 ≤ k.rsp0.toNat
  wordEnd : k.kernelRsp.toNat + 8 ≤ 2 ^ 64
  tssEnd : (k.tss + tssRsp0).toNat + 8 ≤ 2 ^ 64
  stackEntry : k.rsp0.toNat ≤ k.stackLow ∨ k.sp.toNat + 8 ≤ k.rsp0.toNat - 192
  wordStack : k.kernelRsp.toNat + 8 ≤ k.stackLow ∨ k.sp.toNat + 8 ≤ k.kernelRsp.toNat
  tssStack : (k.tss + tssRsp0).toNat + 8 ≤ k.stackLow ∨
    k.sp.toNat + 8 ≤ (k.tss + tssRsp0).toNat
  wordEntry : k.kernelRsp.toNat + 8 ≤ k.rsp0.toNat - 192 ∨ k.rsp0.toNat ≤ k.kernelRsp.toNat
  tssEntry : (k.tss + tssRsp0).toNat + 8 ≤ k.rsp0.toNat - 192 ∨
    k.rsp0.toNat ≤ (k.tss + tssRsp0).toNat
  words : k.kernelRsp.toNat + 8 ≤ (k.tss + tssRsp0).toNat ∨
    (k.tss + tssRsp0).toNat + 8 ≤ k.kernelRsp.toNat

end Grounds

/-- What ring 3 comes to, from `c₀` on. -/
inductive InRing3 (k : Grounds) (c₀ : Cpu) : Cpu → Prop
  | enter : InRing3 k c₀ c₀
  /-- Its code runs, and writes what it may. -/
  | run {c c' : Cpu} (h : InRing3 k c₀ c) (hlevel : c'.privilege = 3)
      (hmem : ∀ a, k.Kept a → c'.mem a = c.mem a) : InRing3 k c₀ c'
  /-- It is interrupted, or asks for something, and goes on. The handler has left the frame as
      `isr_dispatch` leaves it, and what is kept alone. -/
  | interrupt {c c₁ c₂ : Cpu} {vector : UInt8} {software : Bool} {err : Option UInt64}
      {f : InterruptFrame} (h : InRing3 k c₀ c)
      (htaken : c.interrupt k.tables vector software err = some c₁)
      (herr : err.isSome = pushesError vector software) (hstub : vector ≠ 29)
      (hframe : dispatchFrame (frameOf vector err c) = some f)
      (hback : c₂.reg .rsp = (handed vector c₁).reg .rsp)
      (hstack : Stacked (c₂.reg .rsp) f.words c₂.mem)
      (hmem : ∀ a, k.Kept a → c₂.mem a = (handed vector c₁).mem a) : InRing3 k c₀ (wentBack c₂)

/-- All that the way back needs, in memory: what `usermode_enter` pushed, when it was called in
    `c`, where that is, and the stack that ring 3 is interrupted on. -/
structure Saved (k : Grounds) (c : Cpu) (mem : UInt64 → UInt8) : Prop where
  words : Stacked (k.sp - 48) (kernelWords c) mem
  kernelRsp : usermodeKernelRsp k.kernelRsp mem = k.sp - 48
  rsp0 : getWord (k.tss + tssRsp0) mem = k.rsp0

section
variable {k : Grounds} {c c₀ cᵣ c₁ c₃ cₗ : Cpu} {vector : UInt8} {software : Bool}
  {err : Option UInt64} {mem mem' : UInt64 → UInt8}

/-- Interrupts of ring 3 come in elsewhere. -/
theorem Grounds.Apart.entry (hapart : k.Apart) {a : UInt64} (ha : k.Kept a) :
    ¬ (k.rsp0.toNat - 192 ≤ a.toNat ∧ a.toNat < k.rsp0.toNat) := by
  obtain ⟨hroom, -, -, -, -, hstack, -, -, hword, htss, -⟩ := hapart
  simp only [Grounds.Kept, InWord] at ha
  omega

theorem Grounds.Apart.saved_toNat (hapart : k.Apart) :
    (k.sp - 48).toNat = k.sp.toNat - 48 ∧ (k.sp - 64).toNat = k.sp.toNat - 64 := by
  have hroom := hapart.room
  refine ⟨UInt64.toNat_sub_of_le _ _ ?_, UInt64.toNat_sub_of_le _ _ ?_⟩ <;>
  · rw [UInt64.le_iff_toNat_le]
    simp only [UInt64.reduceToNat]
    omega

theorem Saved.congr (hapart : k.Apart) (h : Saved k c mem)
    (hsame : ∀ a, k.Kept a → mem' a = mem a) : Saved k c mem' := by
  obtain ⟨hsaved, -⟩ := hapart.saved_toNat
  have hroom := hapart.room
  have hspEnd := hapart.spEnd
  have hlength : (kernelWords c).length = 7 := rfl
  refine ⟨?_, ?_, ?_⟩
  · exact h.words.congr (by omega) fun a ha ha' => hsame a (Or.inl (by omega))
  · rw [← h.kernelRsp]
    exact getWord_congr hapart.wordEnd fun a ha ha' => hsame a (Or.inr (Or.inl ⟨ha, ha'⟩))
  · rw [← h.rsp0]
    exact getWord_congr hapart.tssEnd fun a ha ha' => hsame a (Or.inr (Or.inr ⟨ha, ha'⟩))

/-! ## The way in

`usermode_enter` pushes the six registers a C function hands back and calls
`usermode_record_kernel_rsp` for the pointer to be stored; only behind this call is the way back
complete, and it is from there that ring 3 is entered.
-/

/-- `usermode_record_kernel_rsp` has come back to `usermode_enter`. It has stored the pointer,
    and otherwise written to the stack below its caller's alone. -/
structure RspRecorded (k : Grounds) (c c₁ : Cpu) : Prop where
  rsp : c₁.reg .rsp = c.reg .rsp
  mem : ∀ a : UInt64, ¬ (k.stackLow ≤ a.toNat ∧ a.toNat < (c.reg .rsp).toNat) →
    c₁.mem a = usermodeRecordKernelRsp k.kernelRsp (c.reg .rdi) c.mem a

/-- **The way back is laid out** when ring 3 is about to be entered. -/
theorem RspRecorded.saved (hapart : k.Apart) (hsp : c.reg .rsp = k.sp)
    (hrsp0 : getWord (k.tss + tssRsp0) c.mem = k.rsp0)
    (h : RspRecorded k (exec usermodeEnter c) cᵣ) :
    cᵣ.reg .rsp = k.sp - 64 ∧
      Stacked (k.sp - 64) (c.reg .rsi :: c.reg .rdi :: kernelWords c) cᵣ.mem ∧
      Saved k c cᵣ.mem := by
  have hroom := hapart.room
  have hspEnd := hapart.spEnd
  have hwordStack := hapart.wordStack
  have htssStack := hapart.tssStack
  have hwords := hapart.words
  obtain ⟨-, hlow⟩ := hapart.saved_toNat
  obtain ⟨hpointer, hrdi, hstacked, hpushed⟩ :=
    exec_usermodeEnter (c := c) (by rw [hsp]; omega) (by rw [hsp]; exact hspEnd)
  rw [hsp] at hpointer hrdi hpushed
  have hstored : ∀ a : UInt64, ¬ (k.stackLow ≤ a.toNat ∧ a.toNat < k.sp.toNat - 64) →
      cᵣ.mem a = putWord k.kernelRsp (k.sp - 48) (exec usermodeEnter c).mem a := by
    intro a ha
    rw [h.mem a (by rw [hpointer, hlow]; exact ha), hrdi]
    rfl
  have hlength : (c.reg .rsi :: c.reg .rdi :: kernelWords c).length = 9 := rfl
  have hstack : Stacked (k.sp - 64) (c.reg .rsi :: c.reg .rdi :: kernelWords c) cᵣ.mem := by
    rw [hpointer] at hstacked
    refine hstacked.congr (by omega) fun a ha ha' => ?_
    rw [hstored a (by omega), putWord_other hapart.wordEnd (by omega)]
  refine ⟨h.rsp.trans hpointer, hstack, ?_, ?_, ?_⟩
  · have hbelow : k.sp - 64 + 8 + 8 = k.sp - 48 := by grind
    rw [← hbelow]
    exact hstack.2.2
  · rw [usermodeKernelRsp, getWord_congr hapart.wordEnd fun a ha ha' => hstored a (by omega)]
    exact getWord_putWord hapart.wordEnd
  · rw [← hrsp0]
    refine getWord_congr hapart.tssEnd fun a ha ha' => ?_
    rw [hstored a (by omega), putWord_other hapart.wordEnd (by omega), hpushed a (by omega)]

/-! ## While ring 3 runs

An interrupt goes in on the privilege stack, which is another one than the kernel was left on, and
writes to nothing that is kept. That it comes back at all is `interrupt_goes_back`.
-/

/-- Of what ring 3 can cause, a stub is wrong about `#VC` alone: there is no other `int` than
    `int 0x80`. -/
theorem stubFits_user (hlevel : c.privilege = 3)
    (htaken : c.interrupt k.tables vector software err = some c₁) (hstub : vector ≠ 29) :
    StubFits vector software := by
  cases software with
  | false => exact hstub
  | true =>
    rw [Grounds.tables, interrupt_taken] at htaken
    split at htaken
    · rename_i hsyscall
      rw [hsyscall]
      decide
    · rw [hlevel, if_neg fun h => absurd (h.2 rfl) (by decide)] at htaken
      cases htaken

/-- Nothing of what is kept is written on the way in. -/
theorem handed_kept (hapart : k.Apart) (hlevel : c.privilege = 3)
    (hrsp0 : getWord (k.tss + tssRsp0) c.mem = k.rsp0)
    (htaken : c.interrupt k.tables vector software err = some c₁)
    (herr : err.isSome = decide (vector ∈ isrErr)) {a : UInt64} (ha : k.Kept a) :
    (handed vector c₁).mem a = c.mem a := by
  have hentry : entryStack k.tss c = k.rsp0 := by
    rw [entryStack, if_neg (by rw [hlevel]; decide), hrsp0]
  obtain ⟨handler, rfl⟩ := interrupt_entered htaken
  obtain ⟨-, hrsp, -, hsame⟩ := handed_frame handler herr (hentry.symm ▸ hapart.entryRoom)
  rw [hentry] at hrsp hsame
  have hout := hapart.entry ha
  exact hsame a (by omega)

/-- All the while the way back lies in memory. -/
theorem InRing3.saved (hapart : k.Apart) (hlevel : c₀.privilege = 3) (hsaved : Saved k c c₀.mem)
    (h : InRing3 k c₀ c₃) : c₃.privilege = 3 ∧ Saved k c c₃.mem := by
  induction h with
  | enter => exact ⟨hlevel, hsaved⟩
  | run _ hlevel' hmem ih => exact ⟨hlevel', ih.2.congr hapart hmem⟩
  | @interrupt d d₁ d₂ vector software err f _ htaken herr hstub hframe hback hstack hmem ih =>
    obtain ⟨hprivilege, hsaved'⟩ := ih
    have herr' := (stubFits_user hprivilege htaken hstub).isSome herr
    obtain ⟨-, -, -, -, -, hmem'⟩ := wentBack_eq hframe hstack
    refine ⟨(wentBack_privilege hframe hstack).trans hprivilege,
      hsaved'.congr hapart fun a ha => ?_⟩
    rw [hmem', hmem a ha, handed_kept hapart hprivilege hsaved'.rsp0 htaken herr' ha]

/-! ## The way out -/

/-- Ring 3 asks for its end, and `usermode_handle_syscall` has called
    `usermode_leave_to_kernel(usermode_kernel_rsp())`. -/
structure Leaves (k : Grounds) (c₃ cₗ : Cpu) : Prop where
  call : c₃.reg .rax = 3
  rdi : cₗ.reg .rdi = usermodeKernelRsp k.kernelRsp cₗ.mem
  mem : ∀ a, k.Kept a → cₗ.mem a = (handed 0x80 (entered k.tss k.isrStub128 none c₃)).mem a

/-- **Ring 3 is a call.** It starts where it was asked to, with what ring 3 gets; and whenever
    it asks for its end, its caller goes on: with its registers and its stack, behind the call.

    `hapart` is about the link and the depth of the stack, and `hrsp0` what `gdt_init` has left in
    the task state segment. `hrecorded` and `hleaves` are the two C functions on the way, by
    what they store and read of `usermode_state.kernel_rsp`, and `hrun` is any run of ring 3
    that writes over nothing of `Kept`.

    `hsp` says where the call of `usermode_enter` is made from: the stack's pointer is the one `k`
    was drawn up for. -/
theorem usermode_returns (hapart : k.Apart) (hsp : c.reg .rsp = k.sp)
    (hrsp0 : getWord (k.tss + tssRsp0) c.mem = k.rsp0)
    (hrecorded : RspRecorded k (exec usermodeEnter c) cᵣ)
    (hrun : InRing3 k (exec usermodeIret cᵣ) c₃) (hleaves : Leaves k c₃ cₗ) :
    ((exec usermodeIret cᵣ).rip = c.reg .rdi ∧ (exec usermodeIret cᵣ).reg .rsp = c.reg .rsi ∧
      (exec usermodeIret cᵣ).privilege = 3 ∧ (exec usermodeIret cᵣ).rflags = 0x202) ∧
    c₃.privilege = 3 ∧ dispatchFrame (frameOf 0x80 none c₃) = none ∧
    let c' := exec usermodeLeaveToKernel cₗ
    (∀ r ∈ calleeSaved, c'.reg r = c.reg r) ∧ c'.reg .rsp = c.reg .rsp + 8 ∧ c'.rip = c.top 0 ∧
      (∀ s ∈ [Seg.ds, .es, .fs, .gs], c'.seg s = gdtKernelDataSelector) ∧
      c'.rflags &&& flagIf = flagIf := by
  have hroom := hapart.room
  have hspEnd := hapart.spEnd
  have hwordStack := hapart.wordStack
  have htssStack := hapart.tssStack
  obtain ⟨-, hlow⟩ := hapart.saved_toNat
  obtain ⟨hpointer, hstacked, hsaved⟩ := hrecorded.saved hapart hsp hrsp0
  have hpointerNat : (cᵣ.reg .rsp).toNat = k.sp.toNat - 64 := by rw [hpointer, hlow]
  obtain ⟨hrip, husp, hlevel, hflags, hsame⟩ := exec_usermodeIret (c := cᵣ) (by omega) (by omega)
    (by rw [hpointer]; exact hstacked)
  -- what is kept lies above the words `iretq` takes, and apart from them
  have hentered : Saved k c (exec usermodeIret cᵣ).mem := hsaved.congr hapart fun a ha =>
    hsame a fun hin => by
      simp only [Grounds.Kept, InWord] at ha
      omega
  obtain ⟨hlevel', hsaved'⟩ := hrun.saved hapart hlevel hentered
  have htaken : c₃.interrupt k.tables 0x80 true none =
      some (entered k.tss k.isrStub128 none c₃) := by
    rw [Grounds.tables, interrupt_taken, if_pos rfl]
  have hleft : Saved k c cₗ.mem := hsaved'.congr hapart fun a ha => by
    rw [hleaves.mem a ha, handed_kept hapart hlevel' hsaved'.rsp0 htaken rfl ha]
  have hrdi : cₗ.reg .rdi = k.sp - 48 := hleaves.rdi.trans hleft.kernelRsp
  obtain ⟨hregs, hrsp, hret, hsegs, hif, -⟩ := exec_usermodeLeaveToKernel (c := cₗ)
    (by rw [hrdi]; exact hleft.words)
  refine ⟨⟨hrip, husp, hlevel, hflags⟩, hlevel', ?_, hregs, ?_, hret, hsegs, hif⟩
  · have hvector : (frameOf 0x80 none c₃).vector = 0x80 := rfl
    have hrax : (frameOf 0x80 none c₃).rax = 3 := hleaves.call
    rw [dispatchFrame, if_pos hvector, usermodeHandleSyscall, hrax]
    rfl
  · rw [hrsp, hrdi, hsp]
    grind

end

/-! The shell's ring 3 demo, where the linker has put things. The timer comes in once. -/

def linkedGrounds : Grounds where
  tss := 0x304c0
  isrStubTable vector := if vector = 32 then 0x10137 else 0x1004d
  isrStub128 := 0x101c7
  kernelRsp := 0x38d88
  rsp0 := 0x32540
  stackLow := 0x9ee28
  sp := 0x9ef80

/-- `usermode_run_entry_stack` has just called `usermode_enter`. -/
def sampleShell : Cpu where
  reg r := if r = .rsp then 0x9ef80 else if r = .rdi then 0x10223 else if r = .rsi then 0x3ada0
    else 5
  seg _ := 0x20
  rip := 0x101e0
  rflags := 0x202
  mem := putWord 0x9ef80 0x1fa52 (putWord 0x304c4 0x32540 fun _ => 0)

/-- The handler goes there with nothing done but the read. -/
theorem Leaves.atOnce (k : Grounds) {c₃ : Cpu} (hcall : c₃.reg .rax = 3) :
    let c₄ := handed 0x80 (entered k.tss k.isrStub128 none c₃)
    Leaves k c₃ (c₄.setReg .rdi (usermodeKernelRsp k.kernelRsp c₄.mem)) :=
  ⟨hcall, Cpu.setReg_self .., fun _ _ => rfl⟩

theorem usermode_returns_interrupted : ∃ c : Cpu, c.reg .rsp = 0x9ef88 ∧ c.rip = 0x1fa52 := by
  let k := linkedGrounds
  let c := exec usermodeEnter sampleShell
  let cᵣ := { c with mem := usermodeRecordKernelRsp k.kernelRsp (c.reg .rdi) c.mem }
  let c₀ := exec usermodeIret cᵣ
  let c₁ := handed 32 (entered k.tss (k.isrStubTable 32) none c₀)
  let c₃ := (wentBack c₁).setReg .rax 3
  have hapart : k.Apart := by
    refine ⟨?_, ?_, ?_, ?_, ?_, ?_, ?_, ?_, ?_, ?_, ?_⟩ <;> decide
  have hrecorded : RspRecorded k c cᵣ := ⟨rfl, fun _ _ => rfl⟩
  have hlevel : c₀.privilege = 3 := by decide +kernel
  have htaken : c₀.interrupt k.tables 32 false none =
      some (entered k.tss (k.isrStubTable 32) none c₀) := by
    rw [Grounds.tables, interrupt_taken, if_neg (by decide), if_pos ⟨by decide, nofun⟩]
  have hframe : dispatchFrame (frameOf 32 none c₀) = some (frameOf 32 none c₀) :=
    if_neg fun h => absurd (vector_syscall h) (by decide)
  have hnone : (none : Option UInt64).isSome = decide ((32 : UInt8) ∈ isrErr) := rfl
  have hroom : 192 ≤ (entryStack k.tss c₀).toNat := by decide +kernel
  obtain ⟨-, -, hstack, -⟩ := handed_frame (k.isrStubTable 32) hnone hroom
  have hrun : InRing3 k c₀ c₃ :=
    .run (.interrupt .enter htaken rfl (by decide) hframe rfl hstack fun _ _ => rfl)
      ((wentBack_privilege hframe hstack).trans hlevel) fun _ _ => rfl
  have hcall : c₃.reg .rax = 3 := Cpu.setReg_self ..
  have hleaves := Leaves.atOnce k hcall
  obtain ⟨-, -, -, -, hrsp, hrip, -⟩ :=
    usermode_returns hapart (c := sampleShell) rfl (by decide +kernel) hrecorded hrun hleaves
  exact ⟨_, hrsp, hrip.trans (by decide +kernel)⟩

end Proof
end BumbelBee
