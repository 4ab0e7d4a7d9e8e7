import BumbelBee.Kernel.ExecImage
import BumbelBee.Lib.Buffer

/-!
# The formatter (`kernel/fmt.c`)

`fmt_vprintf` walks a string in memory, behind whose terminator the memory goes on; it keeps
no length. The model logs every position of the string it looks at. What it is given to emit for
`%s` is a string in memory too, and `emit_string` looks for nothing but the terminator either.
-/

namespace BumbelBee
namespace Kernel

open Lib

/-! ## Numbers -/

/-- The digits the loop of `emit_unsigned` collects, last first; `room` is what is left of
    `char buf[32]`, which the loop does not ask for. -/
def collectDigits (base : UInt64) : Nat → UInt64 → Except Overrun (List UInt8)
  | 0, value => if value = 0 then .ok [] else .error ⟨32, 1, 32⟩
  | room + 1, value =>
    if value = 0 then .ok []
    else do
      let rest ← collectDigits base room (value / base)
      .ok ((cstr "0123456789abcdef").getD (value % base).toNat 0 :: rest)

def emitUnsigned (value : UInt64) (base : UInt32) : Except Overrun (List UInt8) :=
  if value = 0 then .ok [0x30]
  else do
    let buf ← collectDigits base.toUInt64 32 value
    .ok buf.reverse

/-- `emit_signed`, of the bits of an `s64`. -/
def emitSigned (value : UInt64) : Except Overrun (List UInt8) :=
  if value.toInt64 < 0 then do
    let digits ← emitUnsigned (0 - value) 10
    .ok (0x2d :: digits)
  else emitUnsigned value 10

/-! ## Strings -/

/-- `emit_string`, as far as `fuel` rounds of its loop go. -/
def emitString (mem : UInt64 → UInt8) : Nat → UInt64 → List UInt8
  | 0, _ => []
  | fuel + 1, s => if mem s = 0 then [] else mem s :: emitString mem fuel (s + 1)

/-- So many rounds come past every address. -/
@[irreducible] def addresses : Nat := 2 ^ 64

/-! ## The loop -/

/-- The arguments, a word each, and the memory that the strings among them lie in. Addresses go
    round, so one zero in it ends every string. -/
structure VaList where
  word : Nat → UInt64
  mem : UInt64 → UInt8
  terminated : ∃ a, mem a = 0

structure FmtState where
  /-- Where `fmt` points, counted from where it pointed at first. -/
  pos : Nat
  /-- The positions looked at so far. -/
  reads : List Nat
  /-- How many arguments were taken. -/
  taken : Nat
  /-- What was emitted. -/
  out : List UInt8

def FmtState.start : FmtState := ⟨0, [], 0, []⟩

/-- `*fmt` -/
def FmtState.look (s : FmtState) : FmtState := { s with reads := s.reads ++ [s.pos] }

/-- `++fmt` -/
def FmtState.next (s : FmtState) : FmtState := { s with pos := s.pos + 1 }

def FmtState.emit (out : List UInt8) (s : FmtState) : FmtState := { s with out := s.out ++ out }

/-- An argument is taken, and what becomes of it emitted. -/
def FmtState.convert (va : VaList) (f : UInt64 → Except Overrun (List UInt8)) (s : FmtState) :
    Except Overrun FmtState := do
  let out ← f (va.word s.taken)
  .ok { s with taken := s.taken + 1, out := s.out ++ out }

/-- The conversion that begins behind `%l`. -/
def fmtLong (va : VaList) (c : UInt8) (s : FmtState) : Except Overrun FmtState :=
  if c = 0x75 then s.convert va fun w => emitUnsigned w 10
  else if c = 0x64 then s.convert va emitSigned
  else if c = 0x78 then s.convert va fun w => emitUnsigned w 16
  else .ok s

/-- The conversion that begins behind `%`, but for `%l`. -/
def fmtShort (va : VaList) (c : UInt8) (s : FmtState) : Except Overrun FmtState :=
  if c = 0x73 then s.convert va fun w => .ok (emitString va.mem addresses w)
  else if c = 0x63 then s.convert va fun w => .ok [w.toUInt8]
  else if c = 0x75 then s.convert va fun w => emitUnsigned w.toUInt32.toUInt64 10
  else if c = 0x64 then s.convert va fun w => emitSigned w.toUInt32.toInt32.toInt64.toUInt64
  else if c = 0x78 then s.convert va fun w => emitUnsigned w.toUInt32.toUInt64 16
  else if c = 0x25 then .ok (s.emit [0x25])
  else .ok (s.emit [0x3f])

/-- The body of the loop; `mem` is the memory from the string on. -/
def fmtBody (mem : Nat → UInt8) (va : VaList) (s : FmtState) : Except Overrun FmtState :=
  if mem s.pos ≠ 0x25 then .ok (s.emit [mem s.pos])
  else
    let s := s.next.look
    if mem s.pos = 0x6c then
      let s := s.next.look
      fmtLong va (mem s.pos) s
    else fmtShort va (mem s.pos) s

/-- `fmt_vprintf`, as far as `fuel` rounds of its loop go. -/
def fmtVprintf (mem : Nat → UInt8) (va : VaList) : Nat → FmtState →
    Except Overrun (Option FmtState)
  | 0, _ => .ok none
  | fuel + 1, s => do
    let s := s.look
    if mem s.pos = 0 then .ok (some s)
    else
      let s ← fmtBody mem va s
      fmtVprintf mem va fuel s.next

end Kernel
end BumbelBee
