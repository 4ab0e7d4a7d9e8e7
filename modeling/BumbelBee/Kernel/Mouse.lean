import BumbelBee.Lib.Bytes

/-!
# The mouse's decoder (`kernel/mouse.c`)

The port delivers one byte at a time. Three of them make a packet: flags and buttons, then the
two deltas, which move a pointer that stays on an 80 by 25 screen. The handler collects three
bytes before it looks at the first.
-/

namespace BumbelBee
namespace Kernel

/-- `struct mouse_state`: the pointer is on the screen, so no delta of a packet takes the sums
    out of an `s32`. -/
structure MouseState where
  present : UInt32
  x : Int
  y : Int
  buttons : UInt8
  packets : UInt64
  column : 0 ≤ x ∧ x ≤ 79
  row : 0 ≤ y ∧ y ≤ 24
deriving DecidableEq

/-- The statics of the driver. -/
structure Mouse where
  state : MouseState
  /-- `u8 packet[3]`. -/
  packet : Vector UInt8 3
  /-- Where in it the next byte goes. -/
  packetIndex : Fin 3

/-- The statics as the kernel is loaded. -/
def Mouse.loaded : Mouse where
  state := ⟨0, 0, 0, 0, 0, by decide, by decide⟩
  packet := #v[0, 0, 0]
  packetIndex := 0

/-- `mouse_init`: `answers` says whether the controller and the mouse acknowledged every
    command sent to them. -/
def mouseInit (answers : Bool) (m : Mouse) : Mouse where
  state := ⟨if answers then 1 else 0, 40, 12, 0, 0, by decide, by decide⟩
  packet := m.packet
  packetIndex := 0

/-- A coordinate kept between 0 and the last one. -/
def clampTo (last v : Int) : Int := if v < 0 then 0 else if v > last then last else v

theorem clampTo_range {last : Int} (h : 0 ≤ last) (v : Int) :
    0 ≤ clampTo last v ∧ clampTo last v ≤ last := by
  unfold clampTo
  split
  · omega
  · split <;> omega

/-- What a packet does to the state. -/
def MouseState.moved (packet : Vector UInt8 3) (s : MouseState) : MouseState where
  present := s.present
  x := clampTo 79 (s.x + packet[1].toInt8.toInt)
  y := clampTo 24 (s.y - packet[2].toInt8.toInt)
  buttons := packet[0] &&& 0x07
  packets := s.packets + 1
  column := clampTo_range (by decide) _
  row := clampTo_range (by decide) _

def mouseHandleData (data : UInt8) (m : Mouse) : Mouse :=
  if m.state.present = 0 then m
  else
    let packet := m.packet.set m.packetIndex data
    if h : m.packetIndex.val + 1 < 3 then
      { m with packet := packet, packetIndex := ⟨m.packetIndex.val + 1, h⟩ }
    else if packet[0] &&& 0x08 = 0 then { m with packet := packet, packetIndex := 0 }
    else ⟨m.state.moved packet, packet, 0⟩

end Kernel
end BumbelBee
