import BumbelBee.Lib.X86

/-!
# Interrupts on x86-64

The tables the processor looks things up in when an interrupt comes in, in their own formats:
gates, segment descriptors and the task state segment; and what it does then. Stacks come
aligned to 16 out of it, and the interrupted state lies on the one that was chosen.
-/

namespace BumbelBee
namespace Lib
namespace X86

/-! ## Formats

An address is spread over several fields of a gate or a descriptor. The functions put it together,
and nothing else of an entry is looked at but the type, the privilege and whether it is present.
-/

/-- An entry of the interrupt descriptor table. -/
structure Gate where
  offsetLow : UInt16
  selector : UInt16
  ist : UInt8
  typeAttr : UInt8
  offsetMid : UInt16
  offsetHigh : UInt32
  zero : UInt32
deriving DecidableEq, Repr

namespace Gate

def handler (g : Gate) : UInt64 :=
  g.offsetHigh.toUInt64 <<< 32 ||| g.offsetMid.toUInt64 <<< 16 ||| g.offsetLow.toUInt64

def present (g : Gate) : Bool := g.typeAttr &&& 0x80 != 0

/-- The lowest privilege an `int` may have that names the vector. -/
def dpl (g : Gate) : UInt16 := (g.typeAttr >>> 5 &&& 3).toUInt16

/-- The type of an interrupt gate, which masks interrupts. -/
def interruptType (g : Gate) : Bool := g.typeAttr &&& 0xf == 0xe

theorem handler_toNat (g : Gate) : g.handler.toNat =
    g.offsetHigh.toNat * 2 ^ 32 + g.offsetMid.toNat * 2 ^ 16 + g.offsetLow.toNat := by
  have hlow := g.offsetLow.toNat_lt
  have hmid := g.offsetMid.toNat_lt
  have hhigh := g.offsetHigh.toNat_lt
  have hlow' : g.offsetLow.toUInt64.toNat = g.offsetLow.toNat := UInt16.toNat_toUInt64 ..
  have hmid' : (g.offsetMid.toUInt64 <<< 16).toNat = g.offsetMid.toNat * 2 ^ 16 := by
    rw [toNat_shiftLeft_of_lt 16 rfl (by decide) (by rw [UInt16.toNat_toUInt64]; omega),
      UInt16.toNat_toUInt64]
  have hhigh' : (g.offsetHigh.toUInt64 <<< 32).toNat = g.offsetHigh.toNat * 2 ^ 32 := by
    rw [toNat_shiftLeft_of_lt 32 rfl (by decide) (by rw [UInt32.toNat_toUInt64]; omega),
      UInt32.toNat_toUInt64]
  have hupper : (g.offsetHigh.toUInt64 <<< 32 ||| g.offsetMid.toUInt64 <<< 16).toNat = _ :=
    toNat_or_flags 32 (by omega) (by omega)
  rw [handler, toNat_or_flags 16 (by omega) (by omega), hupper, hhigh', hmid', hlow']

end Gate

/-- The base a system descriptor of two words gives. -/
def systemBase (low high : UInt64) : UInt64 :=
  high <<< 32 ||| low >>> 56 <<< 24 ||| low >>> 16 &&& 0xffffff

/-- The privilege a segment is for. -/
def segmentDpl (low : UInt64) : UInt16 := (low >>> 45 &&& 3).toUInt16

/-- A present segment of 64-bit code. -/
def segmentCode64 (low : UInt64) : Bool :=
  low >>> 47 &&& 1 == 1 && low >>> 43 &&& 3 == 3 && low >>> 53 &&& 1 == 1

/-- Where `rsp0` is in the task state segment; the other stack pointers follow. -/
def tssRsp0 : UInt64 := 4

/-- Where the first pointer of the interrupt stack table would be, if it had number 0. -/
def tssIst : UInt64 := 28

/-! ## Interrupts

The processor refuses an interrupt where the tables do not allow it, and that is `none`: where a
gate is not there, say, or an `int` comes without the privilege the gate asks for. What would then
come, another exception, is not followed.
-/

/-- What the table registers and the task register give. -/
structure Tables where
  gate : UInt8 → Gate
  /-- The words of the global descriptor table. -/
  segment : UInt16 → UInt64
  task : UInt16

namespace Tables

def tss (t : Tables) : UInt64 :=
  systemBase (t.segment (t.task >>> 3)) (t.segment ((t.task >>> 3) + 1))

end Tables

/-- The exceptions that come with an error code. -/
def errorVectors : List UInt8 := [8, 10, 11, 12, 13, 14, 17, 21, 29, 30]

/-- An exception's error code is saved with the interrupted state. An `int` has none, whatever
    vector it names, and an interrupt from outside has none either, since no line is given one of
    these vectors. -/
def pushesError (vector : UInt8) (software : Bool) : Bool := !software && errorVectors.contains vector

namespace Cpu

def privilege (c : Cpu) : UInt16 := c.seg .cs &&& 3

/-- The flags an interrupt gate clears: IF, TF, NT, RF and VM. -/
def gateFlags : UInt64 := 0x34300

/-- What the processor saves of the interrupted state. -/
def saved (err : Option UInt64) (c : Cpu) : List UInt64 :=
  [(c.seg .ss).toUInt64, c.reg .rsp, c.rflags, (c.seg .cs).toUInt64, c.rip] ++ err.toList

/-- An interrupt is taken: by an `int`, from outside, or by an exception. `none` if the tables
    do not allow it, and another exception comes instead. -/
def interrupt (t : Tables) (vector : UInt8) (software : Bool) (err : Option UInt64) (c : Cpu) :
    Option Cpu :=
  let gate := t.gate vector
  let code := t.segment (gate.selector >>> 3)
  let level := segmentDpl code
  if !gate.present || (software && gate.dpl < c.privilege) then none
  else if !segmentCode64 code || c.privilege < level then none
  else
    let sp :=
      if gate.ist ≠ 0 then getWord (t.tss + tssIst + 8 * gate.ist.toUInt64) c.mem
      else if level < c.privilege then getWord (t.tss + tssRsp0 + 8 * level.toUInt64) c.mem
      else c.reg .rsp
    let ss := if level < c.privilege then level else c.seg .ss
    let cs := (gate.selector &&& 0xfffc) ||| level
    let flags := if gate.interruptType then gateFlags else gateFlags &&& ~~~flagIf
    let c' := (c.setReg .rsp (sp &&& 0xfffffffffffffff0)).pushAll (c.saved err)
    some { c' with
      rip := gate.handler
      rflags := c.rflags &&& ~~~flags
      seg := Function.update (Function.update c.seg .cs cs) .ss ss }

end Cpu

end X86
end Lib
end BumbelBee
