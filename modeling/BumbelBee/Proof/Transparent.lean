import BumbelBee.Kernel.Entry
import BumbelBee.Proof.Resume

/-!
# An interrupt goes back where it came from

Whatever comes in through the tables of the kernel, from the kernel or from ring 3:
`isr_dispatch` is handed the interrupted state, and behind it that state goes on as the frame
then has it (`interrupt_goes_back`). The frame differs in `rax` at most, the result of a system
call. To a task that was interrupted nothing happened (`interrupted_of_isr`).

Two machines take part in an interrupt, and the frame is the contract between them: the processor
pushes five or six words, depending on the vector, and the stub makes it always the same number. Who
pushes the error code is therefore a table on either side. The two tables differ in one vector that
this hardware does not raise, and an `int` from ring 0 would differ too (`StubFits`). The gates, the
descriptors and the stack pointer of ring 3 are read off the bytes that `idt_init` and `gdt_init`
build.
-/

namespace BumbelBee
namespace Proof

open Lib Lib.X86 Kernel

/-! ## Frames

The stub's pushes and the processor's make up one `struct interrupt_frame`, whose fields are in the
order of the addresses. The handler is handed a pointer to it, so what it changes there is what
comes back.
-/

/-- The frame of an interrupted state. -/
def frameOf (vector : UInt8) (err : Option UInt64) (c : Cpu) : InterruptFrame where
  r15 := c.reg .r15
  r14 := c.reg .r14
  r13 := c.reg .r13
  r12 := c.reg .r12
  r11 := c.reg .r11
  r10 := c.reg .r10
  r9 := c.reg .r9
  r8 := c.reg .r8
  rsi := c.reg .rsi
  rdi := c.reg .rdi
  rbp := c.reg .rbp
  rdx := c.reg .rdx
  rcx := c.reg .rcx
  rbx := c.reg .rbx
  rax := c.reg .rax
  vector := vector.toUInt64
  errorCode := err.getD 0
  rip := c.rip
  cs := (c.seg .cs).toUInt64
  rflags := c.rflags
  rsp := c.reg .rsp
  ss := (c.seg .ss).toUInt64

/-- The registers a frame has. -/
def frameReg (f : InterruptFrame) : Reg → UInt64
  | .rax => f.rax
  | .rbx => f.rbx
  | .rcx => f.rcx
  | .rdx => f.rdx
  | .rbp => f.rbp
  | .rdi => f.rdi
  | .rsi => f.rsi
  | .rsp => f.rsp
  | .r8 => f.r8
  | .r9 => f.r9
  | .r10 => f.r10
  | .r11 => f.r11
  | .r12 => f.r12
  | .r13 => f.r13
  | .r14 => f.r14
  | .r15 => f.r15

section
variable {vector : UInt8} {software : Bool} {err : Option UInt64} {c c₀ : Cpu} {f : InterruptFrame}

theorem frameReg_frameOf (vector : UInt8) (err : Option UInt64) (c : Cpu) :
    frameReg (frameOf vector err c) = c.reg := by
  funext r
  cases r <;> rfl

/-- A handler changes `rax` in a frame, and nothing else. -/
theorem dispatchFrame_some {f' : InterruptFrame} (h : dispatchFrame f = some f') :
    f' = { f with rax := f'.rax } := by
  unfold dispatchFrame usermodeHandleSyscall at h
  split at h
  · split at h
    · rw [← Option.some.inj h]
    · split at h
      · rw [← Option.some.inj h]
      · split at h
        · cases h
        · rw [← Option.some.inj h]
  · rw [← Option.some.inj h]

/-- The stub and the processor agree on whether there is an error code. They do not about `#VC`,
    vector 29, whose stub is an `ISR_NOERR`, and not where ring 0 names the vector of an exception
    with an error code in an `int`. The kernel has no such `int`, and no machine it boots on
    raises `#VC`. -/
def StubFits (vector : UInt8) (software : Bool) : Prop :=
  if software then vector ∉ isrErr else vector ≠ 29

instance (vector : UInt8) (software : Bool) : Decidable (StubFits vector software) :=
  inferInstanceAs (Decidable (if software then vector ∉ isrErr else vector ≠ 29))

theorem stubFits_iff (vector : UInt8) (software : Bool) :
    StubFits vector software ↔ pushesError vector software = decide (vector ∈ isrErr) := by
  cases software with
  | true =>
    rw [StubFits, if_pos rfl, pushesError, Bool.not_true, Bool.false_and, eq_comm,
      decide_eq_false_iff_not]
  | false =>
    rw [StubFits, if_neg Bool.false_ne_true]
    by_cases hvc : vector = 29
    · subst hvc
      decide
    · simp [pushesError, errorVectors, isrErr, hvc]

theorem StubFits.isSome (h : StubFits vector software)
    (herr : err.isSome = pushesError vector software) : err.isSome = decide (vector ∈ isrErr) :=
  herr.trans ((stubFits_iff vector software).mp h)

/-- What a stub pushes behind what the processor did. -/
def stubWords (vector : UInt8) (c : Cpu) : List UInt64 :=
  (if vector ∈ isrErr then [] else [0]) ++ [vector.toUInt64] ++ pushRegs.map c.reg

/-- All of it together is a frame, from its end on. -/
theorem frame_pushed (herr : err.isSome = decide (vector ∈ isrErr)) :
    (c.saved err ++ stubWords vector c).reverse = (frameOf vector err c).words := by
  cases err with
  | none =>
    have hno : vector ∉ isrErr := of_decide_eq_false herr.symm
    rw [stubWords, if_neg hno]
    rfl
  | some code =>
    have hyes : vector ∈ isrErr := of_decide_eq_true herr.symm
    rw [stubWords, if_pos hyes]
    rfl

/-- **The stub** pushes the rest of a frame, and hands over where it is. -/
theorem exec_isrStub (vector : UInt8) (c : Cpu) :
    (exec (isrStub vector) c).reg =
        Function.update (c.pushAll (stubWords vector c)).reg .rdi
          ((c.pushAll (stubWords vector c)).reg .rsp) ∧
      (exec (isrStub vector) c).mem = (c.pushAll (stubWords vector c)).mem ∧
      (exec (isrStub vector) c).rflags = c.rflags &&& ~~~flagDf ∧
      (exec (isrStub vector) c).seg = c.seg := by
  let imms := (if vector ∈ isrErr then [] else [(0 : UInt64)]) ++ [vector.toUInt64]
  have himms : (if vector ∈ isrErr then [] else [Instr.pushImm 0]) ++ [.pushImm vector.toUInt64] =
      imms.map .pushImm := by
    dsimp only [imms]
    split <;> rfl
  let c₁ := c.pushAll imms
  let c₂ := Instr.cld.run c₁
  have hregs : pushRegs.map c₂.reg = pushRegs.map c.reg := Cpu.map_pushAll_reg (by decide) imms c
  have hexec : exec (isrStub vector) c =
      (Instr.mov .rdi .rsp).run (c₂.pushAll (pushRegs.map c.reg)) := by
    rw [isrStub, himms, exec_append, exec_append, exec_append, exec_pushImms,
      show exec [.cld] (c.pushAll imms) = c₂ from rfl, exec_pushes _ _ (by decide), hregs]
    rfl
  have hall : c.pushAll (stubWords vector c) = c₁.pushAll (pushRegs.map c.reg) :=
    c.pushAll_append _ _
  rw [hexec, hall]
  exact ⟨rfl, rfl, rfl, rfl⟩

/-- What is behind the call takes a frame off the stack, and goes where it says. -/
theorem exec_isrReturn (h : Stacked (c.reg .rsp) f.words c.mem) :
    exec isrReturn c =
      { reg := frameReg f
        seg := Function.update (Function.update c.seg .cs f.cs.toUInt16) .ss f.ss.toUInt16
        rip := f.rip
        rflags := f.rflags
        mem := c.mem } := by
  obtain ⟨hpops, hrest⟩ := exec_pops popRegs c (by decide) (g := frameReg f)
    (show Stacked _ (popRegs.map (frameReg f) ++
      [f.vector, f.errorCode, f.rip, f.cs, f.rflags, f.rsp, f.ss]) _ from h)
  let sp := popped popRegs (frameReg f) c.reg .rsp
  let c₁ := { c with reg := popped popRegs (frameReg f) c.reg }.setReg .rsp (sp + 16)
  have hadd : exec isrReturn c = Instr.iretq.run c₁ := by
    rw [isrReturn, exec_append, hpops]
    rfl
  have hsp : c₁.reg .rsp = sp + 8 + 8 := by
    rw [Cpu.setReg_self, UInt64.add_assoc]
    rfl
  have hframe : Stacked (c₁.reg .rsp) [f.rip, f.cs, f.rflags, f.rsp, f.ss] c₁.mem := by
    rw [hsp]
    exact hrest.2.2
  have hreg : Function.update c₁.reg .rsp f.rsp = frameReg f := by
    funext r
    cases r <;> rfl
  rw [hadd, run_iretq hframe, hreg]
  rfl

end

/-! ## The tables

The tables are bytes, put together from shifted fields by `set_gate` and its like, and the processor
takes them apart by its own layout. That the two meet is what the lemmas say, for addresses of any
64 bits.
-/

/-- A gate leads to the address it was made of. -/
theorem setGate_handler (handler : UInt64) (typeAttr : UInt8) :
    (setGate handler typeAttr).handler = handler := by
  have hlt := handler.toNat_lt
  have hlow : (setGate handler typeAttr).offsetLow.toNat = handler.toNat % 2 ^ 16 := by
    have hmask := toNat_and_mask 0 16 handler (show (0xffff : UInt64).toNat = _ by decide)
    rw [setGate, UInt64.toNat_toUInt16, hmask]
    omega
  have hmid : (setGate handler typeAttr).offsetMid.toNat = handler.toNat / 2 ^ 16 % 2 ^ 16 := by
    rw [setGate, UInt64.toNat_toUInt16, toNat_field 16 16 rfl (by decide) (by decide)]
    omega
  have hhigh : (setGate handler typeAttr).offsetHigh.toNat = handler.toNat / 2 ^ 32 := by
    have hshift : (handler >>> 32).toNat = handler.toNat / 2 ^ 32 := by
      rw [UInt64.toNat_shiftRight, Nat.shiftRight_eq_div_pow]
      rfl
    rw [setGate, UInt64.toNat_toUInt32, hshift]
    omega
  refine UInt64.toNat_inj.mp ?_
  rw [Gate.handler_toNat, hlow, hmid, hhigh]
  omega

theorem setTssDescriptor_low (base : UInt64) (limit : UInt32) :
    (setTssDescriptor base limit).1.toNat =
      limit.toNat % 2 ^ 16 + base.toNat % 2 ^ 24 * 2 ^ 16 + 0x89 * 2 ^ 40 +
        limit.toNat / 2 ^ 16 % 2 ^ 4 * 2 ^ 48 + base.toNat / 2 ^ 24 % 2 ^ 8 * 2 ^ 56 := by
  have hlimitLow : (limit.toUInt64 &&& 0xffff).toNat = limit.toNat % 2 ^ 16 := by
    rw [toNat_and_mask 0 16 _ (by decide), UInt32.toNat_toUInt64]
    omega
  have hbaseLow : ((base &&& 0xffffff) <<< 16).toNat = base.toNat % 2 ^ 24 * 2 ^ 16 := by
    have hmask : (base &&& 0xffffff).toNat = base.toNat % 2 ^ 24 := by
      rw [toNat_and_mask 0 24 _ (by decide)]
      omega
    rw [toNat_shiftLeft_of_lt 16 rfl (by decide) (by rw [hmask]; omega), hmask]
  have htype : ((0x89 : UInt64) <<< 40).toNat = 0x89 * 2 ^ 40 := by decide
  have hlimitHigh : ((limit >>> 16 &&& 0x0f).toUInt64 <<< 48).toNat =
      limit.toNat / 2 ^ 16 % 2 ^ 4 * 2 ^ 48 := by
    have hmask : (limit >>> 16 &&& 0x0f).toUInt64.toNat = limit.toNat / 2 ^ 16 % 2 ^ 4 := by
      rw [UInt32.toNat_toUInt64, UInt32.toNat_and, UInt32.toNat_shiftRight,
        Nat.shiftRight_eq_div_pow]
      exact Nat.and_two_pow_sub_one_eq_mod _ 4
    rw [toNat_shiftLeft_of_lt 48 rfl (by decide) (by rw [hmask]; omega), hmask]
  have hbaseHigh : ((base >>> 24 &&& 0xff) <<< 56).toNat =
      base.toNat / 2 ^ 24 % 2 ^ 8 * 2 ^ 56 := by
    have hmask : (base >>> 24 &&& 0xff).toNat = base.toNat / 2 ^ 24 % 2 ^ 8 :=
      toNat_field 24 8 rfl (by decide) (by decide)
    rw [toNat_shiftLeft_of_lt 56 rfl (by decide) (by rw [hmask]; omega), hmask]
  -- the fields do not overlap, from the lowest up
  have h₁ : (limit.toUInt64 &&& (0xffff : UInt64) ||| (base &&& 0xffffff) <<< 16).toNat = _ :=
    toNat_or_field 16 (by omega) (by omega)
  have h₂ : (limit.toUInt64 &&& (0xffff : UInt64) ||| (base &&& 0xffffff) <<< 16 |||
      (0x89 : UInt64) <<< 40).toNat = _ := toNat_or_field 40 (by omega) (by omega)
  have h₃ : (limit.toUInt64 &&& (0xffff : UInt64) ||| (base &&& 0xffffff) <<< 16 |||
      (0x89 : UInt64) <<< 40 ||| (limit >>> 16 &&& 0x0f).toUInt64 <<< 48).toNat = _ :=
    toNat_or_field 48 (by omega) (by omega)
  rw [setTssDescriptor, UInt64.zero_or, toNat_or_field 56 (by omega) (by omega), h₃, h₂, h₁,
    hlimitLow, hbaseLow, htype, hlimitHigh, hbaseHigh]

/-- **The descriptor** leads to the task state segment. -/
theorem setTssDescriptor_base (base : UInt64) (limit : UInt32) :
    systemBase (setTssDescriptor base limit).1 (setTssDescriptor base limit).2 = base := by
  have hlt := base.toNat_lt
  have hlow := setTssDescriptor_low base limit
  have hhigh : (setTssDescriptor base limit).2.toNat = base.toNat / 2 ^ 32 := by
    rw [setTssDescriptor, toNat_field 32 32 rfl (by decide) (by decide)]
    omega
  have hupper : ((setTssDescriptor base limit).2 <<< 32).toNat = base.toNat / 2 ^ 32 * 2 ^ 32 := by
    rw [toNat_shiftLeft_of_lt 32 rfl (by decide) (by omega), hhigh]
  have hmid : ((setTssDescriptor base limit).1 >>> 56 <<< 24).toNat =
      base.toNat / 2 ^ 24 % 2 ^ 8 * 2 ^ 24 := by
    have hshift : ((setTssDescriptor base limit).1 >>> 56).toNat = base.toNat / 2 ^ 24 % 2 ^ 8 := by
      rw [UInt64.toNat_shiftRight, Nat.shiftRight_eq_div_pow, hlow]
      simp only [UInt64.reduceToNat, Nat.reduceMod]
      omega
    rw [toNat_shiftLeft_of_lt 24 rfl (by decide) (by rw [hshift]; omega), hshift]
  have hlower : ((setTssDescriptor base limit).1 >>> 16 &&& 0xffffff).toNat =
      base.toNat % 2 ^ 24 := by
    rw [toNat_field 16 24 rfl (by decide) (by decide), hlow]
    omega
  have hsum : ((setTssDescriptor base limit).2 <<< 32 |||
      (setTssDescriptor base limit).1 >>> 56 <<< 24).toNat = _ :=
    toNat_or_flags 32 (by omega) (by omega)
  refine UInt64.toNat_inj.mp ?_
  rw [systemBase, toNat_or_flags 24 (by omega) (by omega), hsum, hupper, hmid, hlower]
  omega

section
variable {tss isrStub128 handler : UInt64} {isrStubTable : UInt8 → UInt64} {vector : UInt8}
  {software : Bool} {err : Option UInt64} {c c₀ : Cpu}

/-- The stack an interrupt comes in on: the one at hand, or the one for ring 3. -/
def entryStack (tss : UInt64) (c : Cpu) : UInt64 :=
  if c.privilege = 0 then c.reg .rsp else getWord (tss + tssRsp0) c.mem

/-- The state a gate leads to. -/
def entered (tss handler : UInt64) (err : Option UInt64) (c : Cpu) : Cpu :=
  { (c.setReg .rsp (entryStack tss c &&& 0xfffffffffffffff0)).pushAll (c.saved err) with
    rip := handler
    rflags := c.rflags &&& ~~~Cpu.gateFlags
    seg := Function.update (Function.update c.seg .cs gdtKernelCodeSelector) .ss
      (if c.privilege = 0 then c.seg .ss else 0) }

theorem kernelTables_tss : (kernelTables tss isrStubTable isrStub128).tss = tss := by
  have hindex : (gdtTssSelector >>> 3).toNat = 7 ∧ (gdtTssSelector >>> 3 + 1).toNat = 8 := by decide
  rw [Tables.tss]
  dsimp only [kernelTables]
  rw [hindex.1, hindex.2]
  exact setTssDescriptor_base tss (tssSize - 1)

theorem interrupt_setGate {typeAttr : UInt8}
    (hgate : (kernelTables tss isrStubTable isrStub128).gate vector = setGate handler typeAttr)
    (hpresent : typeAttr &&& 0x80 ≠ 0) (htype : typeAttr &&& 0xf = 0xe) :
    c.interrupt (kernelTables tss isrStubTable isrStub128) vector software err =
      if software = true ∧ (typeAttr >>> 5 &&& 3).toUInt16 < c.privilege then none
      else some (entered tss handler err c) := by
  have hcode : (kernelTables tss isrStubTable isrStub128).segment
      ((setGate handler typeAttr).selector >>> 3) = 0x00af9a000000ffff := by
    have hindex : (gdtKernelCodeSelector >>> 3).toNat = 3 := by decide
    dsimp only [kernelTables, setGate]
    rw [hindex]
    rfl
  have hpresent' : (setGate handler typeAttr).present = true := by
    rw [Gate.present, bne_iff_ne]
    exact hpresent
  have htype' : (setGate handler typeAttr).interruptType = true := by
    rw [Gate.interruptType, beq_iff_eq]
    exact htype
  have hlevel : segmentDpl 0x00af9a000000ffff = 0 := by decide
  have hlong : segmentCode64 0x00af9a000000ffff = true := by decide
  have hselector :
      (setGate handler typeAttr).selector &&& 0xfffc ||| 0 = gdtKernelCodeSelector := by
    dsimp only [setGate]
    decide
  have hstack : (if 0 < c.privilege then getWord (tss + tssRsp0 + 8 * UInt16.toUInt64 0) c.mem
      else c.reg .rsp) = entryStack tss c := by
    rw [entryStack, show (8 : UInt64) * UInt16.toUInt64 0 = 0 from rfl, UInt64.add_zero]
    simp only [UInt16.pos_iff_ne_zero, ite_not]
  have hss : (if 0 < c.privilege then 0 else c.seg .ss) =
      if c.privilege = 0 then c.seg .ss else 0 := by
    simp only [UInt16.pos_iff_ne_zero, ite_not]
  have hist : ¬ (setGate handler typeAttr).ist ≠ 0 := fun h => h rfl
  have hdpl : (setGate handler typeAttr).dpl = (typeAttr >>> 5 &&& 3).toUInt16 := rfl
  have hallowed : (!true || decide (c.privilege < 0)) = false := by
    simp
  unfold Cpu.interrupt
  dsimp only
  rw [hgate, hcode, hlevel, hlong, hpresent', htype', kernelTables_tss, setGate_handler,
    if_neg hist, hstack, hss, hselector, hdpl, hallowed, if_pos rfl]
  simp only [Bool.not_true, Bool.false_or, Bool.and_eq_true, decide_eq_true_eq, Bool.false_eq_true,
    if_false]
  rfl

theorem privilege_le (c : Cpu) : ¬ 3 < c.privilege := by
  rw [UInt16.lt_iff_toNat_lt, Cpu.privilege, UInt16.toNat_and]
  exact Nat.not_lt_of_le Nat.and_le_right

/-- **What the gates let in.** Every exception and every hardware line, from wherever; of the
    instructions that ask for a vector, ring 3 gets `int 0x80` and no other. It all comes in
    with interrupts off, in the kernel's code segment, on the stack at hand or on the one
    for ring 3.

    There is no hypothesis. `software` is an `int` that names the vector, for which alone a gate's
    privilege counts; the addresses of the stubs and of `kernel_tss` are any 64-bit numbers, so that
    the three pieces of an offset are put together rightly is part of it. -/
theorem interrupt_taken (tss isrStub128 : UInt64) (isrStubTable : UInt8 → UInt64) (vector : UInt8)
    (software : Bool) (err : Option UInt64) (c : Cpu) :
    c.interrupt (kernelTables tss isrStubTable isrStub128) vector software err =
      if vector = 0x80 then some (entered tss isrStub128 err c)
      else if vector < 48 ∧ (software = true → c.privilege = 0) then
        some (entered tss (isrStubTable vector) err c)
      else none := by
  by_cases hsyscall : vector = 0x80
  · have hgate : (kernelTables tss isrStubTable isrStub128).gate vector =
        setGate isrStub128 0xee := if_pos hsyscall
    have hlevel : ((0xee : UInt8) >>> 5 &&& 3).toUInt16 = 3 := by decide
    rw [interrupt_setGate hgate (by decide) (by decide), if_pos hsyscall, hlevel,
      if_neg fun h => privilege_le c h.2]
  · rw [if_neg hsyscall]
    by_cases hlow : vector < 48
    · have hgate : (kernelTables tss isrStubTable isrStub128).gate vector =
          setGate (isrStubTable vector) 0x8e := (if_neg hsyscall).trans (if_pos hlow)
      have hlevel : ((0x8e : UInt8) >>> 5 &&& 3).toUInt16 = 0 := by decide
      rw [interrupt_setGate hgate (by decide) (by decide), hlevel]
      simp only [UInt16.pos_iff_ne_zero]
      by_cases hsoftware : software = true ∧ c.privilege ≠ 0
      · rw [if_pos hsoftware, if_neg fun h => hsoftware.2 (h.2 hsoftware.1)]
      · rw [if_neg hsoftware, if_pos ⟨hlow, fun h => by_contra fun h' => hsoftware ⟨h, h'⟩⟩]
    · have hgate : (kernelTables tss isrStubTable isrStub128).gate vector =
          ⟨0, 0, 0, 0, 0, 0, 0⟩ := (if_neg hsyscall).trans (if_neg hlow)
      rw [if_neg fun h => hlow h.1]
      unfold Cpu.interrupt
      dsimp only
      rw [hgate]
      exact if_pos rfl

theorem interrupt_entered
    (h : c.interrupt (kernelTables tss isrStubTable isrStub128) vector software err = some c₀) :
    ∃ handler, c₀ = entered tss handler err c := by
  rw [interrupt_taken] at h
  split at h
  · exact ⟨_, (Option.some.inj h).symm⟩
  · split at h
    · exact ⟨_, (Option.some.inj h).symm⟩
    · cases h

/-! ## There and back

The way in is taken once for all vectors and both privilege levels: what differs is the stack the
frame lies on and whether an error code is in it. The way back takes the frame as it then is.
-/

/-- What `isr_dispatch` is called with. -/
def handed (vector : UInt8) (c₀ : Cpu) : Cpu := exec (isrStub vector) c₀

theorem toNat_align (sp : UInt64) : (sp &&& 0xfffffffffffffff0).toNat = sp.toNat / 16 * 16 := by
  have hsp := sp.toNat_lt
  rw [toNat_and_mask 4 60 sp (by decide)]
  omega

/-- The processor and the stub have pushed one row of words. -/
theorem handed_pushed (vector : UInt8) (tss handler : UInt64) (err : Option UInt64) (c : Cpu) :
    let pushed := pushWords (c.saved err ++ stubWords vector c)
      (entryStack tss c &&& 0xfffffffffffffff0) c.mem
    (handed vector (entered tss handler err c)).reg .rsp = pushed.1 ∧
      (handed vector (entered tss handler err c)).reg .rdi = pushed.1 ∧
      (handed vector (entered tss handler err c)).mem = pushed.2 := by
  let sp := entryStack tss c &&& 0xfffffffffffffff0
  let e := entered tss handler err c
  have hwords : stubWords vector e = stubWords vector c := by
    have hregs : pushRegs.map e.reg = pushRegs.map c.reg :=
      (Cpu.map_pushAll_reg (by decide) (c.saved err) (c.setReg .rsp sp)).trans
        (List.map_congr_left fun r hr => Function.update_of_ne
          (ne_of_mem_of_not_mem hr (by decide)) _ _)
    rw [stubWords, stubWords, hregs]
  have hall : (c.setReg .rsp sp).pushAll (c.saved err ++ stubWords vector c) =
      ((c.setReg .rsp sp).pushAll (c.saved err)).pushAll (stubWords vector c) :=
    Cpu.pushAll_append ..
  have hreg : (e.pushAll (stubWords vector c)).reg =
      ((c.setReg .rsp sp).pushAll (c.saved err ++ stubWords vector c)).reg := by
    rw [hall]
    rfl
  have hmem : (e.pushAll (stubWords vector c)).mem =
      ((c.setReg .rsp sp).pushAll (c.saved err ++ stubWords vector c)).mem := by
    rw [hall]
    rfl
  have hsp : (c.setReg .rsp sp).reg .rsp = sp := Cpu.setReg_self ..
  have hstart : (e.pushAll (stubWords vector c)).reg .rsp =
      (pushWords (c.saved err ++ stubWords vector c) sp c.mem).1 := by
    rw [hreg, Cpu.pushAll_rsp, hsp]
    rfl
  obtain ⟨hexecReg, hexecMem, -⟩ := exec_isrStub vector e
  rw [hwords] at hexecReg hexecMem
  refine ⟨?_, ?_, ?_⟩
  · rw [handed, hexecReg, Function.update_of_ne (by decide)]
    exact hstart
  · rw [handed, hexecReg, Function.update_self]
    exact hstart
  · rw [handed, hexecMem, hmem, Cpu.pushAll, hsp]
    rfl

/-- **The handler is handed a frame** of the interrupted state, on a stack aligned for a call. -/
theorem handed_frame (handler : UInt64) (herr : err.isSome = decide (vector ∈ isrErr))
    (hroom : 192 ≤ (entryStack tss c).toNat) :
    let c₁ := handed vector (entered tss handler err c)
    c₁.reg .rdi = c₁.reg .rsp ∧ (c₁.reg .rsp).toNat = (entryStack tss c).toNat / 16 * 16 - 176 ∧
      Stacked (c₁.reg .rsp) (frameOf vector err c).words c₁.mem ∧
      ∀ a : UInt64, ¬ ((c₁.reg .rsp).toNat ≤ a.toNat ∧ a.toNat < (entryStack tss c).toNat) →
        c₁.mem a = c.mem a := by
  have hwords := frame_pushed (c := c) herr
  have hlength : (c.saved err ++ stubWords vector c).length = 22 := by
    rw [← List.length_reverse, hwords]
    rfl
  have halign := toNat_align (entryStack tss c)
  have hlt := (entryStack tss c).toNat_lt
  have hfits : 8 * (c.saved err ++ stubWords vector c).length ≤
      (entryStack tss c &&& 0xfffffffffffffff0).toNat := by omega
  have hpointer := pushWords_pointer _ _ c.mem hfits
  have hstacked := Stacked.pushWords _ [] _ c.mem hfits (by rw [List.length_nil]; omega) trivial
  obtain ⟨hrsp, hrdi, hmem⟩ := handed_pushed vector tss handler err c
  rw [hwords, List.append_nil] at hstacked
  dsimp only
  rw [hrsp, hrdi, hmem]
  refine ⟨rfl, by omega, hstacked, fun a ha => pushWords_other _ _ _ hfits (by omega)⟩

/-- What is behind the call, from the frame as the handler left it. -/
def wentBack (c₂ : Cpu) : Cpu := exec isrReturn c₂

theorem vector_syscall (h : (frameOf vector err c).vector = 0x80) : vector = 0x80 := by
  have hnat : vector.toUInt64.toNat = 0x80 := congrArg UInt64.toNat h
  rw [UInt8.toNat_toUInt64] at hnat
  exact UInt8.toNat_inj.mp hnat

/-- A return through the frame, as it then is. -/
theorem wentBack_eq {c₂ : Cpu} (hframe : dispatchFrame (frameOf vector err c) = some f)
    (hstack : Stacked (c₂.reg .rsp) f.words c₂.mem) :
    (wentBack c₂).reg = Function.update c.reg .rax f.rax ∧ (vector ≠ 0x80 → f.rax = c.reg .rax) ∧
      (wentBack c₂).rip = c.rip ∧ (wentBack c₂).rflags = c.rflags ∧
      (wentBack c₂).seg = Function.update (Function.update c₂.seg .cs (c.seg .cs)) .ss (c.seg .ss) ∧
      (wentBack c₂).mem = c₂.mem := by
  have hsame := dispatchFrame_some hframe
  have hreg : frameReg f = Function.update c.reg .rax f.rax := by
    rw [hsame, ← frameReg_frameOf vector err c]
    funext r
    cases r <;> rfl
  have hreturn := exec_isrReturn hstack
  refine ⟨?_, fun hvector => ?_, ?_, ?_, ?_, ?_⟩
  · rw [wentBack, hreturn, hreg]
  · rw [dispatchFrame, if_neg fun h => hvector (vector_syscall h)] at hframe
    rw [← Option.some.inj hframe]
    rfl
  · rw [wentBack, hreturn, hsame]
    rfl
  · rw [wentBack, hreturn, hsame]
    rfl
  · rw [wentBack, hreturn, hsame]
    have hcs : (c.seg .cs).toUInt64.toUInt16 = c.seg .cs := UInt16.toUInt16_toUInt64 ..
    have hss : (c.seg .ss).toUInt64.toUInt16 = c.seg .ss := UInt16.toUInt16_toUInt64 ..
    simp only [frameOf, hcs, hss]
  · rw [wentBack, hreturn]

theorem wentBack_privilege {c₂ : Cpu} (hframe : dispatchFrame (frameOf vector err c) = some f)
    (hstack : Stacked (c₂.reg .rsp) f.words c₂.mem) : (wentBack c₂).privilege = c.privilege := by
  obtain ⟨-, -, -, -, hseg, -⟩ := wentBack_eq hframe hstack
  rw [Cpu.privilege, hseg, Function.update_of_ne (by decide), Function.update_self]
  rfl

/-- **An interrupt goes back where it came from.** Whatever is interrupted, by whatever vector:
    `isr_dispatch` is called with interrupts off and a frame of that state, and when it comes
    back, its result in the frame, the state goes on, changed in `rax` at most.

    `htaken` is the processor's way in through the kernel's tables, and `herr` says what it pushes.
    A `struct interrupt_frame` has an error code in any case, and it is for the stub to push one
    where the processor has not: `hstub` leaves out the vectors it is mistaken about, for which
    everything behind the error code would lie one word off. `hroom` is the room on the
    stack. Nothing is asked of the handler but that the frame is as `isr_dispatch` leaves it. -/
theorem interrupt_goes_back (tss isrStub128 : UInt64) (isrStubTable : UInt8 → UInt64)
    (htaken : c.interrupt (kernelTables tss isrStubTable isrStub128) vector software err = some c₀)
    (herr : err.isSome = pushesError vector software) (hstub : StubFits vector software)
    (hroom : 192 ≤ (entryStack tss c).toNat) :
    let c₁ := handed vector c₀
    (c₁.reg .rdi = c₁.reg .rsp ∧ (c₁.reg .rsp).toNat % 16 = 0 ∧
      c₁.rflags &&& (flagIf ||| flagDf) = 0 ∧
      Stacked (c₁.reg .rdi) (frameOf vector err c).words c₁.mem) ∧
    ∀ c₂ f, dispatchFrame (frameOf vector err c) = some f → c₂.reg .rsp = c₁.reg .rsp →
      Stacked (c₁.reg .rdi) f.words c₂.mem →
      (wentBack c₂).reg = Function.update c.reg .rax f.rax ∧ (vector ≠ 0x80 → f.rax = c.reg .rax) ∧
        (wentBack c₂).rip = c.rip ∧ (wentBack c₂).rflags = c.rflags ∧
        (wentBack c₂).seg .cs = c.seg .cs ∧ (wentBack c₂).seg .ss = c.seg .ss ∧
        (wentBack c₂).mem = c₂.mem := by
  obtain ⟨handler, rfl⟩ := interrupt_entered htaken
  obtain ⟨hrdi, hrsp, hframe, -⟩ := handed_frame handler (hstub.isSome herr) hroom
  obtain ⟨-, -, hflags, -⟩ := exec_isrStub vector (entered tss handler err c)
  refine ⟨⟨hrdi, by omega, ?_, hrdi ▸ hframe⟩, fun c₂ f hf hback hstack => ?_⟩
  · have hmask : ~~~Cpu.gateFlags &&& (~~~flagDf &&& (flagIf ||| flagDf)) = 0 := by decide
    rw [handed, hflags, entered, UInt64.and_assoc, UInt64.and_assoc, hmask, UInt64.and_zero]
  · rw [hrdi, ← hback] at hstack
    obtain ⟨hreg, hrax, hrip, hrflags, hseg, hmem⟩ := wentBack_eq hf hstack
    refine ⟨hreg, hrax, hrip, hrflags, ?_, ?_, hmem⟩
    · rw [hseg, Function.update_of_ne (by decide), Function.update_self]
    · rw [hseg, Function.update_self]

/-- **To a task an interrupt is none.** It is enough that the handlers leave the frame, what is
    above it on the task's stack, and the other tasks' alone.

    `hkernel` and `hvector` are an interrupt of the kernel by anything but a system call. `htaken`,
    `herr` and `hstub` are as in `interrupt_goes_back`. `hroom` and `hfits` are room for the frame,
    on the stack the task is on. `hplaced` is where the linker has put the
    stacks. The last four are the handler: it comes back on the stack pointer it was called with
    (`hback`), with the segment registers (`hseg`) and the frame (`hframe`) as they were, and has
    written to nothing that is `Above` the interrupted stack pointer (`hmem`). -/
theorem interrupted_of_isr {l : Stacks} (hplaced : StacksApart l) (hkernel : c.privilege = 0)
    (hvector : vector ≠ 0x80)
    (htaken : c.interrupt (kernelTables tss isrStubTable isrStub128) vector software err = some c₀)
    (herr : err.isSome = pushesError vector software) (hstub : StubFits vector software)
    (hroom : 192 ≤ (c.reg .rsp).toNat)
    (hfits : ∀ i, l.low i ≤ (c.reg .rsp).toNat → (c.reg .rsp).toNat ≤ l.high i →
      l.low i + 192 ≤ (c.reg .rsp).toNat) {c₂ : Cpu}
    (hback : c₂.reg .rsp = (handed vector c₀).reg .rsp) (hseg : c₂.seg = (handed vector c₀).seg)
    (hframe : Stacked ((handed vector c₀).reg .rdi) (frameOf vector err c).words c₂.mem)
    (hmem : ∀ i, l.low i ≤ (c.reg .rsp).toNat → (c.reg .rsp).toNat ≤ l.high i → ∀ a,
      Above l i (c.reg .rsp).toNat a → c₂.mem a = (handed vector c₀).mem a) :
    Interrupted l c (wentBack c₂) := by
  obtain ⟨handler, rfl⟩ := interrupt_entered htaken
  have hentry : entryStack tss c = c.reg .rsp := if_pos hkernel
  obtain ⟨hrdi, hrsp, -, hsame⟩ := handed_frame handler (hstub.isSome herr) (hentry.symm ▸ hroom)
  obtain ⟨-, -, -, hstubSeg⟩ := exec_isrStub vector (entered tss handler err c)
  rw [hentry] at hrsp hsame
  rw [hrdi, ← hback] at hframe
  have hdispatch : dispatchFrame (frameOf vector err c) = some (frameOf vector err c) :=
    if_neg fun h => hvector (vector_syscall h)
  obtain ⟨hreg, hrax, hrip, hrflags, hsegs, hmem'⟩ := wentBack_eq hdispatch hframe
  refine ⟨?_, ?_, hrip, hrflags, fun i hlow hhigh a ha => ?_⟩
  · rw [hreg, hrax hvector, Function.update_eq_self]
  · rw [hsegs, hseg, handed, hstubSeg, entered, if_pos hkernel]
    funext r
    cases r <;> rfl
  · have hin := hfits i hlow hhigh
    rw [hmem', hmem i hlow hhigh a ha]
    refine hsame a fun hwritten => ?_
    rcases ha with hguarded | ⟨-, habove⟩
    · exact hplaced.own ⟨by omega, by omega⟩ hguarded
    · omega

end

/-! A system call of ring 3, and the timer in the shell, where the linker has put things. -/

def sampleCaller : Cpu where
  reg r := if r = .rax then 1 else 9
  seg s := if s = .cs then 0x2b else 0x33
  rip := 0x1024f
  rflags := 0x202
  mem := putWord (0x304c0 + tssRsp0) 0x32540 fun _ => 0

/-- It goes in, `usermode_handle_syscall` sets `frame->rax`, and it comes out. -/
theorem interrupt_goes_back_syscall :
    let c₁ := handed 0x80 (entered 0x304c0 0x101c7 none sampleCaller)
    let c₂ : Cpu := { c₁ with mem := putWord (c₁.reg .rdi + 8 * 14) 0 c₁.mem }
    Stacked (c₁.reg .rdi) (frameOf 0x80 none sampleCaller).words c₁.mem ∧
      (wentBack c₂).reg = Function.update sampleCaller.reg .rax 0 ∧
      (wentBack c₂).rip = 0x1024f := by
  intro c₁ c₂
  have hentry : entryStack 0x304c0 sampleCaller = 0x32540 :=
    (if_neg (by decide)).trans (getWord_putWord (by decide))
  have htaken : sampleCaller.interrupt (kernelTables 0x304c0 (fun _ => 0x1004d) 0x101c7) 0x80 true
      none = some (entered 0x304c0 0x101c7 none sampleCaller) := by rw [interrupt_taken, if_pos rfl]
  obtain ⟨⟨-, -, -, hframe⟩, hback⟩ := interrupt_goes_back _ _ _ htaken rfl (by decide)
    (by rw [hentry]; decide)
  have hend : (c₁.reg .rdi).toNat + 8 * 22 ≤ 2 ^ 64 := by decide +kernel
  have hset : Stacked (c₁.reg .rdi) { frameOf 0x80 none sampleCaller with rax := 0 }.words c₂.mem :=
    hframe.set (n := 14) (by decide) hend
  obtain ⟨hreg, -, hrip, -⟩ := hback c₂ { frameOf 0x80 none sampleCaller with rax := 0 } rfl rfl hset
  exact ⟨hframe, hreg, hrip⟩

/-- The shell, with half of its stack used. -/
def sampleShellTurn : Cpu where
  reg r := if r = .rsp then 0x9ef20 else 7
  seg s := if s = .cs then 0x18 else 0x20
  rip := 0x10260
  rflags := 0x202
  mem _ := 0

theorem interrupted_of_isr_timer :
    Interrupted linkedStacks sampleShellTurn
      (wentBack (handed 32 (entered 0x304c0 0x10137 none sampleShellTurn))) := by
  have htaken : sampleShellTurn.interrupt (kernelTables 0x304c0 (fun _ => 0x10137) 0x101c7) 32 false
      none = some (entered 0x304c0 0x10137 none sampleShellTurn) := by
    rw [interrupt_taken, if_neg (by decide), if_pos ⟨by decide, nofun⟩]
  have hfits : ∀ i, linkedStacks.low i ≤ (sampleShellTurn.reg .rsp).toNat →
      (sampleShellTurn.reg .rsp).toNat ≤ linkedStacks.high i →
      linkedStacks.low i + 192 ≤ (sampleShellTurn.reg .rsp).toNat := by
    decide
  have hnone : (none : Option UInt64).isSome = decide ((32 : UInt8) ∈ isrErr) := rfl
  have hroom : 192 ≤ (entryStack 0x304c0 sampleShellTurn).toNat := by decide
  obtain ⟨hrdi, -, hframe, -⟩ := handed_frame 0x10137 hnone hroom
  exact interrupted_of_isr linkedStacks_apart (by decide) (by decide) htaken rfl (by decide)
    (by decide) hfits rfl rfl (hrdi ▸ hframe) fun _ _ _ _ _ => rfl

end Proof
end BumbelBee
