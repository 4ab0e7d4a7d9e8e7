import BumbelBee.Kernel.Mouse
import BumbelBee.Lib.Run

/-!
# Does the mouse's decoder find the packets again?

Aligned, the decoder moves the pointer as each packet says (`Aligned.packets`). It looks for the
flag of a first byte only when it has three bytes, and drops all three when it is not there:
behind one or two stray bytes every three begin with a byte that has it not, so no packet is
ever decoded again (`Slipped.packets`). What the second packet and those behind it say is lost
(`resyncs_iff`).

The test of the first byte is made too late to be of use. It is there to find the packets again, but
it drops three bytes where it would have to drop one, and so keeps whatever distance there was.
-/

namespace BumbelBee
namespace Proof

open Lib Kernel

/-! ## What a mouse sends -/

/-- A packet whose first byte can be told from its deltas. -/
structure MousePacket where
  flags : UInt8
  dx : UInt8
  dy : UInt8
  marked : flags &&& 0x08 ≠ 0
  plainX : dx &&& 0x08 = 0
  plainY : dy &&& 0x08 = 0

def MousePacket.bytes (p : MousePacket) : List UInt8 := [p.flags, p.dx, p.dy]

def packetBytes (ps : List MousePacket) : List UInt8 := ps.flatMap MousePacket.bytes

/-- What a packet is to tell: a pointer on the screen, the buttons, how many there were. -/
structure Pointer where
  x : Int
  y : Int
  buttons : UInt8
  packets : UInt64
deriving DecidableEq

def Pointer.after (q : Pointer) (p : MousePacket) : Pointer where
  x := max 0 (min 79 (q.x + p.dx.toInt8.toInt))
  y := max 0 (min 24 (q.y - p.dy.toInt8.toInt))
  buttons := p.flags &&& 0x07
  packets := q.packets + 1

def MouseState.pointer (s : MouseState) : Pointer := ⟨s.x, s.y, s.buttons, s.packets⟩

/-- The bytes of the port, one by one. -/
def feed (bytes : List UInt8) (m : Mouse) : Mouse := runAll mouseHandleData bytes m

/-- All packets from the second on are decoded as sent. -/
def Resyncs (stray : List UInt8) (packets : List MousePacket) (m : Mouse) : Prop :=
  ∀ p rest, packets = p :: rest → ∀ done, done <+: rest →
    MouseState.pointer (feed (stray ++ packetBytes (p :: done)) m).state =
      done.foldl Pointer.after (MouseState.pointer (feed (stray ++ p.bytes) m).state)

variable {m : Mouse} {s : MouseState} {b : UInt8}

theorem feed_append (bs bs' : List UInt8) (m : Mouse) :
    feed (bs ++ bs') m = feed bs' (feed bs m) := runAll_append bs bs' m

theorem clampTo_eq {last : Int} (h : 0 ≤ last) (v : Int) : clampTo last v = max 0 (min last v) := by
  unfold clampTo
  split
  · omega
  · split <;> omega

/-! ## One byte

The first two bytes of three are only kept. The third has the first looked at, and then all three
are used or all dropped.
-/

/-- A byte that does not complete a packet is kept. -/
theorem mouseHandleData_early (hpresent : m.state.present ≠ 0) (h : m.packetIndex.val + 1 < 3) :
    mouseHandleData b m =
      ⟨m.state, m.packet.set m.packetIndex b, ⟨m.packetIndex.val + 1, h⟩⟩ := by
  rw [mouseHandleData, if_neg hpresent]
  exact dif_pos h

/-- A byte that does has the first looked at. -/
theorem mouseHandleData_last (hpresent : m.state.present ≠ 0) (h : m.packetIndex = 2) :
    mouseHandleData b m =
      ⟨if m.packet.get 0 &&& 0x08 = 0 then m.state else m.state.moved (m.packet.set 2 b),
        m.packet.set 2 b, 0⟩ := by
  obtain ⟨s, packet, index⟩ := m
  obtain rfl : index = 2 := h
  have hfirst : (packet.set 2 b)[0] = packet.get 0 := by
    rw [Vector.getElem_set_ne _ _ (by decide)]
    rfl
  rw [mouseHandleData, if_neg hpresent]
  refine (dif_neg (by simp)).trans ?_
  show (if (packet.set 2 b)[0] &&& 0x08 = 0 then _ else _) = _
  rw [hfirst]
  split <;> rfl

/-! ## Aligned -/

/-- Three bytes from a boundary on. -/
theorem feed_three (hpresent : m.state.present ≠ 0) (hboundary : m.packetIndex = 0)
    (a b c : UInt8) :
    feed [a, b, c] m =
      ⟨if a &&& 0x08 = 0 then m.state else m.state.moved #v[a, b, c], #v[a, b, c], 0⟩ := by
  obtain ⟨s, packet, index⟩ := m
  obtain rfl : index = 0 := hboundary
  have hset : ((packet.set 0 a).set 1 b).set 2 c = #v[a, b, c] := by
    ext i hi
    obtain rfl | rfl | rfl : i = 0 ∨ i = 1 ∨ i = 2 := by omega
    · simp
    · simp
    · simp
  have hfirst : ((packet.set 0 a).set 1 b).get 0 = a := by
    show ((packet.set 0 a).set 1 b)[0] = a
    simp
  have hone : mouseHandleData a ⟨s, packet, 0⟩ = ⟨s, packet.set 0 a, 1⟩ :=
    mouseHandleData_early (m := ⟨s, packet, 0⟩) hpresent (by simp)
  have htwo : mouseHandleData b ⟨s, packet.set 0 a, 1⟩ = ⟨s, (packet.set 0 a).set 1 b, 2⟩ :=
    mouseHandleData_early (m := ⟨s, packet.set 0 a, 1⟩) hpresent (by simp)
  rw [feed, runAll_cons, runAll_cons, runAll_cons, runAll_nil, hone, htwo,
    mouseHandleData_last (m := ⟨s, (packet.set 0 a).set 1 b, 2⟩) hpresent rfl, hset, hfirst]

/-- The decoder is on a boundary, and the mouse is there. -/
structure Aligned (m : Mouse) : Prop where
  present : m.state.present ≠ 0
  boundary : m.packetIndex = 0

/-- **An aligned decoder** moves the pointer as the packet says, and is aligned again. -/
theorem Aligned.packet (h : Aligned m) (p : MousePacket) :
    Aligned (feed p.bytes m) ∧
      MouseState.pointer (feed p.bytes m).state = (MouseState.pointer m.state).after p := by
  rw [MousePacket.bytes, feed_three h.present h.boundary, if_neg p.marked]
  refine ⟨⟨h.present, rfl⟩, ?_⟩
  simp [MouseState.pointer, MouseState.moved, Pointer.after, clampTo_eq]

/-- And so for packets that follow each other. -/
theorem Aligned.packets (h : Aligned m) : ∀ ps : List MousePacket,
    MouseState.pointer (feed (packetBytes ps) m).state =
      ps.foldl Pointer.after (MouseState.pointer m.state) := by
  intro ps
  induction ps generalizing m with
  | nil => rfl
  | cons p ps ih =>
    obtain ⟨haligned, hpointer⟩ := h.packet p
    rw [packetBytes, List.flatMap_cons, feed_append, ← packetBytes, ih haligned, hpointer,
      List.foldl_cons]

/-! ## Out of step

A packet's first byte has the mark, and its deltas are such as do not; so a group of three that
begins with a delta is dropped, and so is each one behind it.
-/

/-- What is collected begins with a byte without the mark: the state is what it was. -/
structure Slipped (s : MouseState) (i : Fin 3) (m : Mouse) : Prop where
  state : m.state = s
  index : m.packetIndex = i
  unmarked : i ≠ 0 → m.packet[0] &&& 0x08 = 0

/-- **One byte.** Only the first of three is looked at. -/
theorem Slipped.byte {i : Fin 3} (hpresent : s.present ≠ 0) (h : Slipped s i m)
    (hbyte : i = 0 → b &&& 0x08 = 0) : Slipped s (i + 1) (mouseHandleData b m) := by
  obtain ⟨s, packet, index⟩ := m
  obtain ⟨rfl, rfl, hunmarked⟩ := h
  match index with
  | 0 =>
    rw [mouseHandleData_early hpresent (by simp)]
    exact ⟨rfl, rfl, fun _ => by simpa using hbyte rfl⟩
  | 1 =>
    rw [mouseHandleData_early hpresent (by simp)]
    exact ⟨rfl, rfl, fun _ => by simpa using hunmarked (by simp)⟩
  | 2 =>
    have hfirst : packet.get 0 &&& 0x08 = 0 := hunmarked (by simp)
    rw [mouseHandleData_last hpresent rfl, if_pos hfirst]
    exact ⟨rfl, rfl, fun h => absurd rfl h⟩

/-- Stray bytes without the mark shift the boundary. -/
theorem Slipped.strays {i : Fin 3} (hpresent : s.present ≠ 0) (h : Slipped s i m) :
    ∀ stray : List UInt8, (∀ b ∈ stray, b &&& 0x08 = 0) →
      Slipped s (i + Fin.ofNat 3 stray.length) (feed stray m) := by
  intro stray
  induction stray generalizing i m with
  | nil =>
    intro _
    have hzero : i + Fin.ofNat 3 ([] : List UInt8).length = i := by simp
    rw [hzero]
    exact h
  | cons b stray ih =>
    intro hall
    have hnext := h.byte hpresent fun _ => hall b List.mem_cons_self
    have hrest := ih hnext fun b' hb' => hall b' (List.mem_cons_of_mem _ hb')
    have hindex : i + 1 + Fin.ofNat 3 stray.length = i + Fin.ofNat 3 (b :: stray).length := by
      rw [List.length_cons, Fin.ext_iff]
      simp only [Fin.val_add, Fin.val_ofNat, Fin.val_one]
      omega
    rw [← hindex]
    exact hrest

/-- **Packets out of step** are dropped, and the next one is out of step as well: the first of
    three bytes is always a delta. -/
theorem Slipped.packets {i : Fin 3} (hpresent : s.present ≠ 0) (hi : i ≠ 0)
    (h : Slipped s i m) (ps : List MousePacket) : Slipped s i (feed (packetBytes ps) m) := by
  induction ps generalizing m with
  | nil => exact h
  | cons p ps ih =>
    rw [packetBytes, List.flatMap_cons, feed_append]
    refine ih ?_
    have hflags := h.byte (b := p.flags) hpresent fun h0 => absurd h0 hi
    have hdx := hflags.byte (b := p.dx) hpresent fun _ => p.plainX
    have hdy := hdx.byte (b := p.dy) hpresent fun _ => p.plainY
    have hround : i + 1 + 1 + 1 = i := by
      match i with
      | 0 | 1 | 2 => rfl
    rwa [hround] at hdy

/-! ## The stream -/

/-- **Behind stray bytes** that are no multiple of three, the decoder never moves again. -/
theorem strays_stick (h : Aligned m) {stray : List UInt8} (hquiet : ∀ b ∈ stray, b &&& 0x08 = 0)
    (hslip : stray.length % 3 ≠ 0) (ps : List MousePacket) :
    (feed (stray ++ packetBytes ps) m).state = m.state := by
  have hstart : Slipped m.state 0 m := ⟨rfl, h.boundary, fun h0 => absurd rfl h0⟩
  have hshift := hstart.strays h.present stray hquiet
  have hne : 0 + Fin.ofNat 3 stray.length ≠ 0 := by
    rw [Ne, Fin.ext_iff]
    simpa [Fin.val_add] using hslip
  rw [feed_append]
  exact (hshift.packets h.present hne ps).state

/-- **The packets from the second on are decoded exactly when there is none.**

    `hpresent` and `hboundary` are a mouse that is there and a decoder that expects a first byte.
    `hquiet` says that the stray bytes do not look like a first byte, and `hfew` that they are one
    or two: three would be dropped together, and do no harm. The packets are well formed by their
    type. -/
theorem resyncs_iff {stray : List UInt8} (hpresent : m.state.present ≠ 0)
    (hboundary : m.packetIndex = 0) (hquiet : ∀ b ∈ stray, b &&& 0x08 = 0)
    (hfew : stray.length = 1 ∨ stray.length = 2) (packets : List MousePacket) :
    Resyncs stray packets m ↔ packets.length ≤ 1 := by
  have haligned : Aligned m := ⟨hpresent, hboundary⟩
  have hslip : stray.length % 3 ≠ 0 := by omega
  have hstuck := strays_stick haligned hquiet hslip
  constructor
  · intro hresync
    by_contra hmany
    -- the second packet would be counted, and the count is what it was before the strays
    obtain ⟨p, q, rest, rfl⟩ : ∃ p q rest, packets = p :: q :: rest := by
      match packets with
      | [] | [_] => simp at hmany
      | p :: q :: rest => exact ⟨p, q, rest, rfl⟩
    have hsecond := hresync p (q :: rest) rfl [q] ⟨rest, rfl⟩
    have hfirst : feed (stray ++ p.bytes) m = feed (stray ++ packetBytes [p]) m := by
      rw [packetBytes, List.flatMap_singleton]
    rw [hfirst, hstuck, hstuck] at hsecond
    have hcount : m.state.packets = m.state.packets + 1 := congrArg Pointer.packets hsecond
    exact absurd hcount (by simp)
  · rintro hone p rest rfl done hdone
    obtain rfl : rest = [] := by simpa using hone
    obtain rfl : done = [] := List.prefix_nil.mp hdone
    rw [packetBytes, List.flatMap_singleton]
    rfl

/-- The left button down, one column to the right and two rows up. -/
def leftPress : MousePacket := ⟨0x09, 1, 2, by decide, by decide, by decide⟩

/-- `resyncs_iff` on a stray zero in front of one packet, behind `mouse_init`. -/
theorem resyncs_iff_once :
    Resyncs [0] [leftPress] (mouseInit true Mouse.loaded) ↔ [leftPress].length ≤ 1 :=
  resyncs_iff (by decide) rfl (fun b hb => by obtain rfl := List.mem_singleton.mp hb; rfl)
    (Or.inl rfl) [leftPress]

/-- One stray zero, and two packets that press the left button: the second is not decoded. -/
theorem stray_byte_sticks :
    ¬ ∀ (stray : List UInt8) (packets : List MousePacket) (m : Mouse), m.state.present ≠ 0 →
      m.packetIndex = 0 → (∀ b ∈ stray, b &&& 0x08 = 0) → stray.length = 1 ∨ stray.length = 2 →
      Resyncs stray packets m := by
  intro h
  have hresync := h [0] [leftPress, leftPress] (mouseInit true Mouse.loaded) (by decide) rfl
    (fun b hb => by obtain rfl := List.mem_singleton.mp hb; rfl) (Or.inl rfl)
  have hlost := congrArg Pointer.packets (hresync _ _ rfl _ List.prefix_rfl)
  revert hlost
  decide

end Proof
end BumbelBee
