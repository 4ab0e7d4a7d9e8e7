import BumbelBee.Kernel.Netfs

/-!
# Hardware interrupts (`kernel/interrupts.c`, `kernel/keyboard.c`)

What `isr_dispatch` does for the vectors 32 to 47, as far as it reaches the recorder and the
drivers: the timer's tick, the keyboard's decoder. The mouse's handler and the lines nobody
listens on do neither.
-/

namespace BumbelBee
namespace Kernel

open Lib

/-! ## The keyboard's decoder -/

/-- `normal_map`: the characters from a scancode on. -/
def normalMap : List (UInt8 × String) :=
  [(0x02, "1234567890-=\x08\tqwertyuiop[]\n"), (0x1e, "asdfghjkl;'`"), (0x2b, "\\zxcvbnm,./"),
    (0x39, " ")]

/-- `shift_map`. -/
def shiftMap : List (UInt8 × String) :=
  [(0x02, "!@#$%^&*()_+\x08\tQWERTYUIOP\x7b\x7d\n"), (0x1e, "ASDFGHJKL:\"~"), (0x2b, "|ZXCVBNM<>?"),
    (0x39, " ")]

/-- The entry of a key, 0 where the map has none. -/
def keyAt (table : List (UInt8 × String)) (key : UInt8) : UInt8 :=
  (table.findSome? fun (first, text) =>
    if first ≤ key then (cstr text)[(key - first).toNat]? else none).getD 0

/-- The character a plain key stands for. -/
def Keyboard.decode (key : UInt8) (k : Keyboard) : UInt8 :=
  if k.leftShift || k.rightShift then keyAt shiftMap key else keyAt normalMap key

/-- The keys that scroll the console behind the prefix `0xe0`. -/
def scrollKeys : List UInt8 := [0x49, 0x51, 0x47, 0x4f]

def keyboardHandleScancode (scancode : UInt8) (d : Devices) : Devices :=
  let released := scancode &&& 0x80 != 0
  let key := scancode &&& 0x7f
  let k := d.keyboard
  if scancode = 0xe0 then { d with keyboard := { k with extendedPrefix := true } }
  else
    let d := { d with keyboard := { k with extendedPrefix := false } }
    if k.extendedPrefix ∧ released = false ∧ key ∈ scrollKeys then d
    else if key = 0x2a then { d with keyboard := { d.keyboard with leftShift := !released } }
    else if key = 0x36 then { d with keyboard := { d.keyboard with rightShift := !released } }
    else if released then d
    else
      let ch := k.decode key
      if ch = 0 then d
      else powerKeyboardChar ch (d.record .keyboard 0 ch.toUInt64 scancode.toUInt64)

/-! ## Dispatch -/

/-- A hardware interrupt, with what its handler reads off the device. -/
inductive Irq
  | timer
  | keyboard (scancode : UInt8)
  | other (line : Fin 14)
deriving DecidableEq, Repr

def Irq.vector : Irq → UInt64
  | .timer => 32
  | .keyboard _ => 33
  | .other line => 34 + UInt64.ofNat line.val

/-- `isr_dispatch`: a replay lets no hardware interrupt in. -/
def isrDispatch (i : Irq) (d : Devices) : Devices :=
  if d.trace.replay.active then d
  else
    let d := d.record .irq 0 i.vector 0
    match i with
    | .timer => powerTickHook { d with ticks := d.ticks + 1 }
    | .keyboard scancode => keyboardHandleScancode scancode d
    | .other _ => d

end Kernel
end BumbelBee
