import Mathlib.Logic.Function.Basic
import BumbelBee.Lib.Pages

/-!
# Straight-line x86-64 code

Routines written in assembly that save registers on a stack and load them from one. A routine
may be cut into before each of its instructions, by a handler that comes back; what an
assertion has to survive is the handler's `cut`. `Triple` is the logic for that, with one rule
for the pushes of a whole list of registers and one for the pops.
-/

namespace BumbelBee
namespace Lib
namespace X86

inductive Reg
  | rax | rbx | rcx | rdx | rbp | rdi | rsi | rsp | r8 | r9 | r10 | r11 | r12 | r13 | r14 | r15
deriving DecidableEq, Repr

inductive Seg
  | cs | ss | ds | es | fs | gs
deriving DecidableEq, Repr

structure Cpu where
  reg : Reg → UInt64
  seg : Seg → UInt16
  rip : UInt64
  rflags : UInt64
  mem : UInt64 → UInt8

def putWord (addr value : UInt64) (mem : UInt64 → UInt8) : UInt64 → UInt8 :=
  putBytes addr (putU64 value) mem

/-- The instructions such routines are made of. -/
inductive Instr
  | push (src : Reg)
  | pushImm (value : UInt64)
  | pop (dst : Reg)
  | mov (dst src : Reg)
  /-- `mov ax, value`: the rest of the register stays. -/
  | movAx (value : UInt16)
  | movSeg (dst : Seg) (src : Reg)
  /-- `mov [base], src` -/
  | store (base src : Reg)
  /-- `mov dst, [base]` -/
  | load (dst base : Reg)
  /-- `lea dst, [base + offset]` -/
  | lea (dst base : Reg) (offset : UInt64)
  | add (dst : Reg) (value : UInt64)
  | cld
  | sti
  | ret
  | iretq
deriving DecidableEq, Repr

def flagIf : UInt64 := 0x200
def flagDf : UInt64 := 0x400

namespace Cpu

def setReg (r : Reg) (value : UInt64) (c : Cpu) : Cpu :=
  { c with reg := Function.update c.reg r value }

def push (value : UInt64) (c : Cpu) : Cpu :=
  let sp := c.reg .rsp - 8
  { c.setReg .rsp sp with mem := putWord sp value c.mem }

/-- The word `n` places up the stack. -/
def top (n : UInt64) (c : Cpu) : UInt64 := getWord (c.reg .rsp + 8 * n) c.mem

@[simp] theorem setReg_self (r : Reg) (value : UInt64) (c : Cpu) :
    (c.setReg r value).reg r = value := Function.update_self ..

@[simp] theorem push_reg (value : UInt64) (c : Cpu) :
    (c.push value).reg = Function.update c.reg .rsp (c.reg .rsp - 8) := rfl

@[simp] theorem push_mem (value : UInt64) (c : Cpu) :
    (c.push value).mem = putWord (c.reg .rsp - 8) value c.mem := rfl

end Cpu

theorem toNat_sub_eight {sp : UInt64} (h : 8 ≤ sp.toNat) : (sp - 8).toNat = sp.toNat - 8 :=
  UInt64.toNat_sub_of_le _ _ (UInt64.le_iff_toNat_le.mpr h)

theorem toNat_add_eight {addr : UInt64} (h : addr.toNat + 8 < 2 ^ 64) :
    (addr + 8).toNat = addr.toNat + 8 := by
  rw [UInt64.toNat_add]
  exact Nat.mod_eq_of_lt h

theorem putWord_other {addr value a : UInt64} {mem : UInt64 → UInt8}
    (hend : addr.toNat + 8 ≤ 2 ^ 64) (h : ¬ (addr.toNat ≤ a.toNat ∧ a.toNat < addr.toNat + 8)) :
    putWord addr value mem a = mem a := by
  rw [putWord, putBytes_at (by rw [length_putU64]; exact hend), length_putU64, if_neg h]

def Instr.run (i : Instr) (c : Cpu) : Cpu :=
  match i with
  | .push src => c.push (c.reg src)
  | .pushImm value => c.push value
  | .pop dst => (c.setReg .rsp (c.reg .rsp + 8)).setReg dst (c.top 0)
  | .mov dst src => c.setReg dst (c.reg src)
  | .movAx value => c.setReg .rax ((c.reg .rax &&& 0xffffffffffff0000) ||| value.toUInt64)
  | .movSeg dst src => { c with seg := Function.update c.seg dst (c.reg src).toUInt16 }
  | .store base src => { c with mem := putWord (c.reg base) (c.reg src) c.mem }
  | .load dst base => c.setReg dst (getWord (c.reg base) c.mem)
  | .lea dst base offset => c.setReg dst (c.reg base + offset)
  | .add dst value => c.setReg dst (c.reg dst + value)
  | .cld => { c with rflags := c.rflags &&& ~~~flagDf }
  | .sti => { c with rflags := c.rflags ||| flagIf }
  | .ret => { c.setReg .rsp (c.reg .rsp + 8) with rip := c.top 0 }
  | .iretq =>
    { c.setReg .rsp (c.top 3) with
      rip := c.top 0
      rflags := c.top 2
      seg := Function.update (Function.update c.seg .cs (c.top 1).toUInt16) .ss (c.top 4).toUInt16 }

/-- What `mov ax` leaves in the lower half. -/
theorem movAx_toUInt16 (a : UInt64) (value : UInt16) :
    ((a &&& 0xffffffffffff0000) ||| value.toUInt64).toUInt16 = value := by
  have hvalue : value.toUInt64.toNat = value.toNat := UInt16.toNat_toUInt64 value
  have hlt := value.toNat_lt
  have hmask := toNat_and_mask 16 48 a (show (0xffffffffffff0000 : UInt64).toNat = _ by decide)
  refine UInt16.toNat_inj.mp ?_
  rw [UInt64.toNat_toUInt16, toNat_or_flags 16 (by omega) (by omega), hmask, hvalue]
  omega

/-- Interrupts are on behind `sti`. -/
theorem sti_flagIf (flags : UInt64) : (flags ||| flagIf) &&& flagIf = flagIf := by
  refine UInt64.toNat_inj.mp (Nat.eq_of_testBit_eq fun i => ?_)
  rw [UInt64.toNat_and, UInt64.toNat_or, Nat.testBit_and, Nat.testBit_or]
  cases flagIf.toNat.testBit i <;> simp

/-! ## Words on a stack -/

/-- The words from an address on. -/
def Stacked : UInt64 → List UInt64 → (UInt64 → UInt8) → Prop
  | _, [], _ => True
  | addr, w :: ws, mem => getWord addr mem = w ∧ Stacked (addr + 8) ws mem

section
variable {addr value : UInt64} {ws ws' : List UInt64} {mem mem' : UInt64 → UInt8}

theorem Stacked.append_iff : ∀ {addr : UInt64} {ws : List UInt64},
    Stacked addr (ws ++ ws') mem ↔
      Stacked addr ws mem ∧ Stacked (addr + 8 * UInt64.ofNat ws.length) ws' mem
  | addr, [] => by
    rw [List.nil_append, Stacked, true_and, List.length_nil, show UInt64.ofNat 0 = 0 from rfl,
      UInt64.mul_zero, UInt64.add_zero]
  | addr, w :: ws => by
    have hnext : addr + 8 + 8 * UInt64.ofNat ws.length =
        addr + 8 * UInt64.ofNat (w :: ws).length := by
      rw [List.length_cons, UInt64.ofNat_add, UInt64.mul_add, UInt64.add_assoc,
        UInt64.add_comm 8 (8 * _)]
      rfl
    rw [List.cons_append, Stacked, Stacked, Stacked.append_iff, and_assoc, hnext]

/-- A word of them. -/
theorem Stacked.word : ∀ {addr : UInt64} {ws : List UInt64} {n : Nat} {w : UInt64},
    Stacked addr ws mem → ws[n]? = some w → getWord (addr + 8 * UInt64.ofNat n) mem = w
  | addr, w :: ws, 0, _, h, hw => by
    rw [show UInt64.ofNat 0 = 0 from rfl, UInt64.mul_zero, UInt64.add_zero, h.1]
    exact Option.some.inj hw
  | addr, w :: ws, n + 1, _, h, hw => by
    have hnext : addr + 8 * UInt64.ofNat (n + 1) = addr + 8 + 8 * UInt64.ofNat n := by
      rw [UInt64.ofNat_add, UInt64.mul_add, UInt64.add_assoc, UInt64.add_comm (8 * _)]
      rfl
    rw [hnext]
    exact h.2.word hw

/-- Words stay where nothing is written. -/
theorem Stacked.congr : ∀ {addr : UInt64} {ws : List UInt64}, addr.toNat + 8 * ws.length ≤ 2 ^ 64 →
    (∀ a, addr.toNat ≤ a.toNat → a.toNat < addr.toNat + 8 * ws.length → mem' a = mem a) →
    Stacked addr ws mem → Stacked addr ws mem'
  | _, [], _, _, _ => trivial
  | addr, w :: ws, hend, hsame, h => by
    rw [List.length_cons] at hend hsame
    refine ⟨?_, ?_⟩
    · rw [← h.1]
      exact getWord_congr (by omega) fun a hlow hhigh => hsame a hlow (by omega)
    · cases ws with
      | nil => trivial
      | cons w' ws =>
        rw [List.length_cons] at hend hsame
        have hnext : (addr + 8).toNat = addr.toNat + 8 := toNat_add_eight (by omega)
        refine h.2.congr (by rw [hnext, List.length_cons]; omega) fun a hlow hhigh => ?_
        rw [hnext] at hlow hhigh
        rw [List.length_cons] at hhigh
        exact hsame a (by omega) (by omega)

/-- A word of them is stored over. -/
theorem Stacked.set : ∀ {addr : UInt64} {ws : List UInt64} {n : Nat}, n < ws.length →
    addr.toNat + 8 * ws.length ≤ 2 ^ 64 → Stacked addr ws mem →
    Stacked addr (ws.set n value) (putWord (addr + 8 * UInt64.ofNat n) value mem)
  | addr, w :: ws, 0, _, hend, h => by
    rw [List.length_cons] at hend
    rw [show UInt64.ofNat 0 = 0 from rfl, UInt64.mul_zero, UInt64.add_zero]
    refine ⟨getWord_putWord (by omega), ?_⟩
    cases ws with
    | nil => trivial
    | cons w' ws =>
      rw [List.length_cons] at hend
      have hnext : (addr + 8).toNat = addr.toNat + 8 := toNat_add_eight (by omega)
      exact h.2.congr (by rw [hnext, List.length_cons]; omega) fun a ha _ =>
        putWord_other (by omega) (by omega)
  | addr, w :: ws, n + 1, hn, hend, h => by
    rw [List.length_cons] at hn hend
    have hnext : (addr + 8).toNat = addr.toNat + 8 := toNat_add_eight (by omega)
    have hplace : addr + 8 * UInt64.ofNat (n + 1) = addr + 8 + 8 * UInt64.ofNat n := by
      rw [UInt64.ofNat_add, UInt64.mul_add, UInt64.add_comm (8 * _), UInt64.add_assoc]
      rfl
    have hat : (addr + 8 + 8 * UInt64.ofNat n).toNat = addr.toNat + 8 + 8 * n := by
      rw [UInt64.toNat_add, UInt64.toNat_mul, UInt64.toNat_ofNat', hnext]
      simp only [UInt64.reduceToNat]
      omega
    rw [hplace]
    refine ⟨?_, h.2.set (by omega) (by omega)⟩
    rw [← h.1]
    exact getWord_congr (by omega) fun a _ ha => putWord_other (by omega) (by omega)

/-- What is pushed comes to lie on top. -/
theorem Stacked.push {sp : UInt64} (hroom : 8 ≤ sp.toNat) (hend : sp.toNat + 8 * ws.length ≤ 2 ^ 64)
    (h : Stacked sp ws mem) : Stacked (sp - 8) (value :: ws) (putWord (sp - 8) value mem) := by
  have hlow := toNat_sub_eight hroom
  have hsp := sp.toNat_lt
  refine ⟨getWord_putWord (by omega), ?_⟩
  rw [UInt64.sub_add_cancel]
  exact h.congr hend fun a ha _ => putWord_other (by omega) (by omega)

end

/-- Words stored one below the other, `*--sp = w` for each. -/
def pushWords (ws : List UInt64) (sp : UInt64) (mem : UInt64 → UInt8) : UInt64 × (UInt64 → UInt8) :=
  ws.foldl (fun s w => (s.1 - 8, putWord (s.1 - 8) w s.2)) (sp, mem)

theorem pushWords_fst (ws : List UInt64) (sp : UInt64) (mem : UInt64 → UInt8) :
    (pushWords ws sp mem).1 = sp - 8 * UInt64.ofNat ws.length := by
  induction ws generalizing sp mem with
  | nil =>
    rw [List.length_nil, show UInt64.ofNat 0 = 0 from rfl, UInt64.mul_zero, UInt64.sub_zero]
    rfl
  | cons w ws ih =>
    have hsum : sp - 8 - 8 * UInt64.ofNat ws.length = sp - 8 * UInt64.ofNat (w :: ws).length := by
      rw [UInt64.sub_eq_iff_eq_add, UInt64.sub_eq_iff_eq_add, UInt64.add_assoc, List.length_cons,
        UInt64.ofNat_add, UInt64.mul_add]
      exact (UInt64.sub_add_cancel _ _).symm
    exact (ih _ _).trans hsum

theorem pushWords_pointer (ws : List UInt64) (sp : UInt64) (mem : UInt64 → UInt8)
    (hroom : 8 * ws.length ≤ sp.toNat) :
    (pushWords ws sp mem).1.toNat = sp.toNat - 8 * ws.length := by
  have hsp := sp.toNat_lt
  have hsize : (8 * UInt64.ofNat ws.length).toNat = 8 * ws.length := by
    rw [UInt64.toNat_mul, UInt64.toNat_ofNat']
    simp only [UInt64.reduceToNat]
    omega
  rw [pushWords_fst, UInt64.toNat_sub_of_le _ _ (UInt64.le_iff_toNat_le.mpr (by omega)), hsize]

theorem Stacked.pushWords : ∀ (ws ws' : List UInt64) (sp : UInt64) (mem : UInt64 → UInt8),
    8 * ws.length ≤ sp.toNat → sp.toNat + 8 * ws'.length ≤ 2 ^ 64 → Stacked sp ws' mem →
    Stacked (pushWords ws sp mem).1 (ws.reverse ++ ws') (pushWords ws sp mem).2
  | [], _, _, _, _, _, h => h
  | w :: ws, ws', sp, mem, hroom, hend, h => by
    rw [List.length_cons] at hroom
    have hlow := toNat_sub_eight (show 8 ≤ sp.toNat by omega)
    have hpush : Stacked (sp - 8) (w :: ws') (putWord (sp - 8) w mem) := h.push (by omega) hend
    have hrest := Stacked.pushWords ws (w :: ws') _ _ (by omega) (by rw [List.length_cons]; omega)
      hpush
    rw [List.reverse_cons, List.append_assoc, List.singleton_append]
    exact hrest

theorem pushWords_other {a : UInt64} : ∀ (ws : List UInt64) (sp : UInt64) (mem : UInt64 → UInt8),
    8 * ws.length ≤ sp.toNat → ¬ (sp.toNat - 8 * ws.length ≤ a.toNat ∧ a.toNat < sp.toNat) →
    (pushWords ws sp mem).2 a = mem a
  | [], _, _, _, _ => rfl
  | w :: ws, sp, mem, hroom, hout => by
    rw [List.length_cons] at hroom hout
    have hsp := sp.toNat_lt
    have hlow := toNat_sub_eight (show 8 ≤ sp.toNat by omega)
    have hrest := pushWords_other ws (sp - 8) (putWord (sp - 8) w mem) (by omega)
      (show ¬ (_ ≤ a.toNat ∧ _) by omega)
    exact hrest.trans (putWord_other (by omega) (by omega))

/-! ## Routines that are cut into -/

/-- The run of a routine; before each instruction a handler may come and go. -/
inductive Runs (cut : Cpu → Cpu → Prop) : List Instr → Cpu → Cpu → Prop
  | done (c : Cpu) : Runs cut [] c c
  | step {i : Instr} {rest : List Instr} {c c₁ c' : Cpu} (hcut : cut c c₁)
      (hrest : Runs cut rest (i.run c₁) c') : Runs cut (i :: rest) c c'

def Stable (cut : Cpu → Cpu → Prop) (P : Cpu → Prop) : Prop := ∀ c c', cut c c' → P c → P c'

def Triple (cut : Cpu → Cpu → Prop) (P : Cpu → Prop) (code : List Instr) (Q : Cpu → Prop) : Prop :=
  ∀ c c', P c → Runs cut code c c' → Q c'

section
variable {cut : Cpu → Cpu → Prop} {P Q R : Cpu → Prop} {i : Instr} {code code' : List Instr}

theorem Triple.nil (h : ∀ c, P c → Q c) : Triple cut P [] Q := by
  intro c c' hP hrun
  cases hrun
  exact h c hP

theorem Triple.cons (hstable : Stable cut P) (hstep : ∀ c, P c → R (i.run c))
    (hrest : Triple cut R code Q) : Triple cut P (i :: code) Q := by
  intro c c' hP hrun
  cases hrun with
  | step hcut hrun => exact hrest _ _ (hstep _ (hstable _ _ hcut hP)) hrun

theorem Runs.append_iff {c c' : Cpu} :
    Runs cut (code ++ code') c c' ↔ ∃ c₁, Runs cut code c c₁ ∧ Runs cut code' c₁ c' := by
  induction code generalizing c with
  | nil =>
    constructor
    · exact fun h => ⟨c, .done c, h⟩
    · rintro ⟨c₁, h, h'⟩
      cases h
      exact h'
  | cons i code ih =>
    constructor
    · intro h
      cases h with
      | step hcut hrest =>
        obtain ⟨c₁, h, h'⟩ := ih.mp hrest
        exact ⟨c₁, .step hcut h, h'⟩
    · rintro ⟨c₁, h, h'⟩
      cases h with
      | step hcut hrest => exact .step hcut (ih.mpr ⟨c₁, hrest, h'⟩)

theorem Triple.append (h : Triple cut P code R) (h' : Triple cut R code' Q) :
    Triple cut P (code ++ code') Q := by
  intro c c' hP hrun
  obtain ⟨c₁, hfirst, hsecond⟩ := Runs.append_iff.mp hrun
  exact h' _ _ (h _ _ hP hfirst) hsecond

/-- A routine that runs through. -/
def exec (code : List Instr) (c : Cpu) : Cpu := code.foldl (fun c i => i.run c) c

/-- It does where no handler comes. -/
theorem Runs.uncut (hcut : ∀ c, cut c c) (code : List Instr) (c : Cpu) :
    Runs cut code c (exec code c) := by
  induction code generalizing c with
  | nil => exact .done c
  | cons i code ih => exact .step (hcut c) (ih _)

theorem exec_append (code code' : List Instr) (c : Cpu) :
    exec (code ++ code') c = exec code' (exec code c) := List.foldl_append

end

/-! ## Saving registers and loading them -/

/-- Handlers that come while the stack pointer is within a stack: they hand the registers back,
    and write to the stack below its pointer and to nothing of `kept`. -/
structure Polite (cut : Cpu → Cpu → Prop) (lo hi : Nat) (kept : UInt64 → Prop) : Prop where
  reg : ∀ {c c'}, cut c c' → c'.reg = c.reg
  above : ∀ {c c'}, cut c c' → lo ≤ (c.reg .rsp).toNat → (c.reg .rsp).toNat ≤ hi →
    ∀ a : UInt64, (c.reg .rsp).toNat ≤ a.toNat → a.toNat < hi → c'.mem a = c.mem a
  rest : ∀ {c c'}, cut c c' → lo ≤ (c.reg .rsp).toNat → (c.reg .rsp).toNat ≤ hi →
    ∀ a, kept a → c'.mem a = c.mem a
  apart : ∀ a, kept a → ¬ (lo ≤ a.toNat ∧ a.toNat < hi)

/-- A fact about memory that only the bytes of a set matter to. -/
def DependsOn (kept : UInt64 → Prop) (F : (UInt64 → UInt8) → Prop) : Prop :=
  ∀ mem mem' : UInt64 → UInt8, (∀ a, kept a → mem' a = mem a) → F mem → F mem'

/-- The registers, the words on the stack, and what holds of the memory besides. -/
structure At (f : Reg → UInt64) (ws : List UInt64) (F : (UInt64 → UInt8) → Prop) (c : Cpu) :
    Prop where
  reg : c.reg = f
  stack : Stacked (f .rsp) ws c.mem
  frame : F c.mem

section
variable {cut : Cpu → Cpu → Prop} {lo hi : Nat} {kept : UInt64 → Prop} {f g : Reg → UInt64}
  {ws : List UInt64} {F : (UInt64 → UInt8) → Prop}

theorem Polite.stable (h : Polite cut lo hi kept) (hF : DependsOn kept F) (hhi : hi ≤ 2 ^ 64)
    (hlo : lo ≤ (f .rsp).toNat) (hws : (f .rsp).toNat + 8 * ws.length ≤ hi) :
    Stable cut (At f ws F) := by
  rintro c c' hcut ⟨hreg, hstack, hframe⟩
  have habove := h.above hcut
  have hrest := h.rest hcut
  rw [hreg] at habove hrest
  refine ⟨(h.reg hcut).trans hreg, ?_, ?_⟩
  · exact hstack.congr (by omega) fun a hlow hhigh => habove hlo (by omega) a hlow (by omega)
  · exact hF _ _ (hrest hlo (by omega)) hframe

/-- **Saving registers** leaves them on the stack, the last one on top. -/
theorem Polite.pushes (h : Polite cut lo hi kept) (hF : DependsOn kept F) (hhi : hi ≤ 2 ^ 64) :
    ∀ (rs : List Reg) (f : Reg → UInt64) (ws : List UInt64), .rsp ∉ rs →
      lo + 8 * rs.length ≤ (f .rsp).toNat → (f .rsp).toNat + 8 * ws.length ≤ hi →
      Triple cut (At f ws F) (rs.map .push)
        (At (Function.update f .rsp (f .rsp - 8 * UInt64.ofNat rs.length))
          ((rs.map f).reverse ++ ws) F)
  | [], f, ws, _, _, _ => by
    refine Triple.nil fun c hc => ?_
    rw [List.length_nil, show UInt64.ofNat 0 = 0 from rfl, UInt64.mul_zero, UInt64.sub_zero,
      Function.update_eq_self]
    exact hc
  | r :: rs, f, ws, hrsp, hroom, hws => by
    obtain ⟨hr, hrs⟩ := List.ne_and_not_mem_of_not_mem_cons hrsp
    rw [List.length_cons] at hroom
    have hlow := toNat_sub_eight (show 8 ≤ (f .rsp).toNat by omega)
    have hsame : rs.map (Function.update f .rsp (f .rsp - 8)) = rs.map f :=
      List.map_congr_left fun r' hr' => Function.update_of_ne (ne_of_mem_of_not_mem hr' hrs) _ _
    have hrest := Polite.pushes h hF hhi rs (Function.update f .rsp (f .rsp - 8)) (f r :: ws) hrs
      (by rw [Function.update_self]; omega)
      (by rw [Function.update_self, List.length_cons]; omega)
    have hsum : f .rsp - 8 - 8 * UInt64.ofNat rs.length =
        f .rsp - 8 * UInt64.ofNat (r :: rs).length := by
      rw [UInt64.sub_eq_iff_eq_add, UInt64.sub_eq_iff_eq_add, UInt64.add_assoc, List.length_cons,
        UInt64.ofNat_add, UInt64.mul_add]
      exact (UInt64.sub_add_cancel _ _).symm
    rw [Function.update_self, Function.update_idem, hsame, hsum] at hrest
    rw [List.map_cons, List.map_cons, List.reverse_cons, List.append_assoc, List.singleton_append]
    refine Triple.cons (h.stable hF hhi (by omega) hws) (fun c hc => ?_) hrest
    refine ⟨?_, ?_, hF _ _ (fun a ha => ?_) hc.frame⟩
    · rw [Instr.run, Cpu.push_reg, hc.reg]
    · rw [Function.update_self, Instr.run, Cpu.push_mem, hc.reg]
      exact hc.stack.push (by omega) (by omega)
    · have hout := h.apart a ha
      rw [Instr.run, Cpu.push_mem, hc.reg]
      exact putWord_other (by omega) (by omega)

/-- The registers behind a row of pops. -/
def popped (rs : List Reg) (g f : Reg → UInt64) (r : Reg) : UInt64 :=
  if r = .rsp then f .rsp + 8 * UInt64.ofNat rs.length else if r ∈ rs then g r else f r

theorem popped_nil (g f : Reg → UInt64) : popped [] g f = f := by
  funext r
  by_cases hr : r = .rsp
  · subst hr
    rw [popped, if_pos rfl, List.length_nil, show UInt64.ofNat 0 = 0 from rfl, UInt64.mul_zero,
      UInt64.add_zero]
  · rw [popped, if_neg hr, if_neg List.not_mem_nil]

theorem popped_cons {r : Reg} {rs : List Reg} (hr : .rsp ≠ r) :
    popped rs g (Function.update (Function.update f .rsp (f .rsp + 8)) r (g r)) =
      popped (r :: rs) g f := by
  funext q
  by_cases hq : q = .rsp
  · subst hq
    rw [popped, popped, if_pos rfl, if_pos rfl, Function.update_of_ne hr, Function.update_self,
      List.length_cons, UInt64.ofNat_add, UInt64.mul_add, UInt64.add_comm (8 * _), UInt64.add_assoc]
    rfl
  · rw [popped, popped, if_neg hq, if_neg hq]
    by_cases hqr : q = r
    · subst hqr
      rw [if_pos List.mem_cons_self, Function.update_self]
      split <;> rfl
    · rw [Function.update_of_ne hqr, Function.update_of_ne hq]
      simp only [List.mem_cons, hqr, false_or]

/-- **Loading registers** takes the words off the stack that were saved of them. -/
theorem Polite.pops (h : Polite cut lo hi kept) (hF : DependsOn kept F) (hhi : hi ≤ 2 ^ 64) :
    ∀ (rs : List Reg) (f : Reg → UInt64), .rsp ∉ rs → lo ≤ (f .rsp).toNat →
      (f .rsp).toNat + 8 * (rs.length + ws.length) ≤ hi → ws ≠ [] →
      Triple cut (At f (rs.map g ++ ws) F) (rs.map .pop) (At (popped rs g f) ws F)
  | [], f, _, _, _, _ => by
    refine Triple.nil fun c hc => ?_
    rw [popped_nil]
    exact hc
  | r :: rs, f, hrsp, hlo, hws, hne => by
    obtain ⟨hr, hrs⟩ := List.ne_and_not_mem_of_not_mem_cons hrsp
    rw [List.length_cons] at hws
    have hpos : 0 < ws.length := List.length_pos_iff.mpr hne
    have hnext : (f .rsp + 8).toNat = (f .rsp).toNat + 8 := toNat_add_eight (by omega)
    let f' := Function.update (Function.update f .rsp (f .rsp + 8)) r (g r)
    have hsp : f' .rsp = f .rsp + 8 := by
      rw [show f' .rsp = Function.update f .rsp (f .rsp + 8) .rsp from
        Function.update_of_ne hr _ _, Function.update_self]
    have hrest := Polite.pops h hF hhi rs f' hrs (by rw [hsp]; omega)
      (by rw [hsp]; omega) hne
    rw [popped_cons hr] at hrest
    rw [List.map_cons, List.map_cons, List.cons_append]
    refine Triple.cons (h.stable hF hhi hlo (by simp; omega)) (fun c hc => ?_) hrest
    obtain ⟨htop, hbelow⟩ := hc.stack
    refine ⟨?_, ?_, hc.frame⟩
    · rw [Instr.run, Cpu.setReg, Cpu.setReg, Cpu.top, UInt64.mul_zero, UInt64.add_zero, hc.reg,
        htop]
    · rw [hsp]
      exact hbelow

end

/-- What `iretq` goes to. -/
theorem run_iretq {rip cs rflags rsp ss : UInt64} {c : Cpu}
    (h : Stacked (c.reg .rsp) [rip, cs, rflags, rsp, ss] c.mem) :
    Instr.iretq.run c =
      { c with
        reg := Function.update c.reg .rsp rsp
        seg := Function.update (Function.update c.seg .cs cs.toUInt16) .ss ss.toUInt16
        rip
        rflags } := by
  have hrip : c.top 0 = rip := h.word (n := 0) rfl
  have hcs : c.top 1 = cs := h.word (n := 1) rfl
  have hrflags : c.top 2 = rflags := h.word (n := 2) rfl
  have hrsp : c.top 3 = rsp := h.word (n := 3) rfl
  have hss : c.top 4 = ss := h.word (n := 4) rfl
  rw [Instr.run, Cpu.setReg, hrip, hcs, hrflags, hrsp, hss]

/-! ## Running through -/

/-- The processor behind words that were pushed. -/
def Cpu.pushAll (ws : List UInt64) (c : Cpu) : Cpu :=
  { c with
    reg := Function.update c.reg .rsp (pushWords ws (c.reg .rsp) c.mem).1
    mem := (pushWords ws (c.reg .rsp) c.mem).2 }

theorem Cpu.pushAll_rsp (ws : List UInt64) (c : Cpu) :
    (c.pushAll ws).reg .rsp = (pushWords ws (c.reg .rsp) c.mem).1 := by
  simp only [pushAll, Function.update_self]

theorem Cpu.pushAll_nil (c : Cpu) : c.pushAll [] = c := by
  rw [pushAll, show pushWords [] (c.reg .rsp) c.mem = (c.reg .rsp, c.mem) from rfl,
    Function.update_eq_self]

theorem Cpu.pushAll_cons (w : UInt64) (ws : List UInt64) (c : Cpu) :
    c.pushAll (w :: ws) = (c.push w).pushAll ws := by
  have hword : pushWords (w :: ws) (c.reg .rsp) c.mem =
      pushWords ws (c.reg .rsp - 8) (putWord (c.reg .rsp - 8) w c.mem) := rfl
  rw [pushAll, pushAll, push_reg, push_mem, Function.update_self, Function.update_idem, hword]
  rfl

theorem Cpu.pushAll_append (ws ws' : List UInt64) (c : Cpu) :
    c.pushAll (ws ++ ws') = (c.pushAll ws).pushAll ws' := by
  induction ws generalizing c with
  | nil => rw [List.nil_append, pushAll_nil]
  | cons w ws ih => rw [List.cons_append, pushAll_cons, pushAll_cons, ih]

theorem exec_pushes (rs : List Reg) (c : Cpu) (hrs : .rsp ∉ rs) :
    exec (rs.map .push) c = c.pushAll (rs.map c.reg) := by
  induction rs generalizing c with
  | nil =>
    rw [List.map_nil, List.map_nil, Cpu.pushAll_nil]
    rfl
  | cons r rs ih =>
    obtain ⟨hr, hrs⟩ := List.ne_and_not_mem_of_not_mem_cons hrs
    have hsame : rs.map (c.push (c.reg r)).reg = rs.map c.reg :=
      List.map_congr_left fun r' hr' => Function.update_of_ne (ne_of_mem_of_not_mem hr' hrs) _ _
    rw [List.map_cons, List.map_cons, Cpu.pushAll_cons, ← hsame]
    exact ih _ hrs

theorem exec_pushImms (ws : List UInt64) (c : Cpu) :
    exec (ws.map .pushImm) c = c.pushAll ws := by
  induction ws generalizing c with
  | nil =>
    rw [Cpu.pushAll_nil]
    rfl
  | cons w ws ih =>
    rw [Cpu.pushAll_cons]
    exact ih _

/-- The other registers stay where words are pushed. -/
theorem Cpu.map_pushAll_reg {rs : List Reg} (hrs : .rsp ∉ rs) (ws : List UInt64) (c : Cpu) :
    rs.map (c.pushAll ws).reg = rs.map c.reg :=
  List.map_congr_left fun _ hr => Function.update_of_ne (ne_of_mem_of_not_mem hr hrs) _ _

theorem exec_pops {g : Reg → UInt64} {ws : List UInt64} (rs : List Reg) (c : Cpu)
    (hrs : .rsp ∉ rs) (h : Stacked (c.reg .rsp) (rs.map g ++ ws) c.mem) :
    exec (rs.map .pop) c = { c with reg := popped rs g c.reg } ∧
      Stacked (popped rs g c.reg .rsp) ws c.mem := by
  induction rs generalizing c with
  | nil =>
    rw [popped_nil]
    exact ⟨rfl, h⟩
  | cons r rs ih =>
    obtain ⟨hr, hrs⟩ := List.ne_and_not_mem_of_not_mem_cons hrs
    obtain ⟨htop, hbelow⟩ := h
    have hpop : (Instr.pop r).run c =
        { c with
          reg := Function.update (Function.update c.reg .rsp (c.reg .rsp + 8)) r (g r) } := by
      rw [Instr.run, Cpu.setReg, Cpu.setReg, Cpu.top, UInt64.mul_zero, UInt64.add_zero, htop]
    rw [List.map_cons, exec, List.foldl_cons, hpop, ← popped_cons hr]
    have hsp : Function.update (Function.update c.reg .rsp (c.reg .rsp + 8)) r (g r) .rsp =
        c.reg .rsp + 8 := by rw [Function.update_of_ne hr, Function.update_self]
    refine ih _ hrs ?_
    dsimp only
    rw [hsp]
    exact hbelow

end X86
end Lib
end BumbelBee
