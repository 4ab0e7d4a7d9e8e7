import BumbelBee.Kernel.Isr
import BumbelBee.Lib.Latest
import BumbelBee.Lib.Run
import Mathlib.Data.List.Chain

/-!
# Which keys shift?

The decoder keeps one bit for each shift key, set by a make and cleared by a break. A code
behind the prefix `0xe0` is another key's; but the decoder knows four such keys only, and takes
any other for the plain key of the same number. So the map it decodes with is that of the
latest shift codes with the prefixed ones among them (`decode_exact`), and the right one as
long as no shift code stands behind a prefix (`decode_follows_shift`).

The decoder's memory is one bit for the prefix and two for the keys, and the state a run leaves is a
function of very little of it. The exact statement (`decode_exact`) is for every run; the theorem is
what it says where the keyboard sends no such pair, as keyboards do not.
-/

namespace BumbelBee
namespace Proof

open Lib Kernel

/-! ## What the codes say -/

/-- The key of a make or break code, and whether it is a make. -/
def press (code : UInt8) : UInt8 × Bool := (code &&& 0x7f, code &&& 0x80 == 0)

/-- The codes that have no `0xe0` directly in front, and are none; `behind` says that one stands
    in front of them all. -/
def unprefixed (behind : Bool) : List UInt8 → List UInt8
  | [] => []
  | code :: codes =>
    if code = 0xe0 then unprefixed true codes
    else if behind then unprefixed false codes
    else code :: unprefixed false codes

/-- The latest code of a key is a make. -/
def Held (key : UInt8) (codes : List UInt8) : Prop := latest key (codes.map press) = some true

instance (key : UInt8) (codes : List UInt8) : Decidable (Held key codes) :=
  inferInstanceAs (Decidable (_ = _))

/-- The code of a shift key, or of another key of the same number. -/
def ShiftCode (code : UInt8) : Prop := code &&& 0x7f = 0x2a ∨ code &&& 0x7f = 0x36

/-- The map a plain key is to be decoded with. -/
def mapFor (codes : List UInt8) : List (UInt8 × String) :=
  if Held 0x2a codes ∨ Held 0x36 codes then shiftMap else normalMap

/-- The keyboard behind `keyboard_init` and the codes. -/
def keyboardAfter (codes : List UInt8) (d : Devices) : Keyboard :=
  (runAll keyboardHandleScancode codes (keyboardInit d)).keyboard

/-- The next plain key is decoded with the map of the unprefixed shift codes. -/
def ShiftsRight (codes : List UInt8) (d : Devices) : Prop :=
  ∀ key, (keyboardAfter codes d).decode key = keyAt (mapFor (unprefixed false codes)) key

variable {codes : List UInt8} {code : UInt8} {d : Devices}

/-! ## One code -/

theorem powerKeyboardChar_shift (ch : UInt8) (d : Devices) :
    (powerKeyboardChar ch d).keyboard.leftShift = d.keyboard.leftShift ∧
      (powerKeyboardChar ch d).keyboard.rightShift = d.keyboard.rightShift := by
  simp only [powerKeyboardChar]
  split <;> exact ⟨rfl, rfl⟩

/-- **What a code does to the shift keys**, whatever stands in front of it. -/
theorem keyboardHandleScancode_shift (code : UInt8) (d : Devices) :
    (keyboardHandleScancode code d).keyboard.leftShift =
        (if code &&& 0x7f = 0x2a then code &&& 0x80 == 0 else d.keyboard.leftShift) ∧
      (keyboardHandleScancode code d).keyboard.rightShift =
        (if code &&& 0x7f = 0x36 then code &&& 0x80 == 0 else d.keyboard.rightShift) := by
  have hmake : (!(code &&& 0x80 != 0)) = (code &&& 0x80 == 0) := Bool.not_not _
  simp only [keyboardHandleScancode]
  by_cases hprefix : code = 0xe0
  · rw [if_pos hprefix, hprefix]
    exact ⟨rfl, rfl⟩
  rw [if_neg hprefix]
  by_cases hscroll : d.keyboard.extendedPrefix ∧ (code &&& 0x80 != 0) = false ∧
      code &&& 0x7f ∈ scrollKeys
  · -- none of the four is a shift key's number
    have hnot : code &&& 0x7f ≠ 0x2a ∧ code &&& 0x7f ≠ 0x36 := by
      refine ⟨fun h => ?_, fun h => ?_⟩ <;>
        exact absurd (h ▸ hscroll.2.2) (by simp [scrollKeys])
    rw [if_pos hscroll, if_neg hnot.1, if_neg hnot.2]
    exact ⟨rfl, rfl⟩
  rw [if_neg hscroll]
  by_cases hleft : code &&& 0x7f = 0x2a
  · rw [if_pos hleft, if_pos hleft, hleft, hmake]
    exact ⟨rfl, rfl⟩
  rw [if_neg hleft, if_neg hleft]
  by_cases hright : code &&& 0x7f = 0x36
  · rw [if_pos hright, if_pos hright, hmake]
    exact ⟨rfl, rfl⟩
  rw [if_neg hright, if_neg hright]
  split
  · exact ⟨rfl, rfl⟩
  split
  · exact ⟨rfl, rfl⟩
  · exact powerKeyboardChar_shift ..

/-! ## All of them -/

theorem held_concat (key : UInt8) (codes : List UInt8) (code : UInt8) :
    Held key (codes ++ [code]) ↔
      if code &&& 0x7f = key then (code &&& 0x80 == 0) = true else Held key codes := by
  rw [Held, List.map_append, List.map_singleton, latest_concat, press]
  split
  · exact Option.some_inj
  · exact Iff.rfl

/-- **The map decoded with** is that of all shift codes, prefixed or not. -/
theorem decode_exact (codes : List UInt8) (d : Devices) (key : UInt8) :
    (keyboardAfter codes d).decode key = keyAt (mapFor codes) key := by
  have hbits : ((keyboardAfter codes d).leftShift = true ↔ Held 0x2a codes) ∧
      ((keyboardAfter codes d).rightShift = true ↔ Held 0x36 codes) := by
    refine runAll_invariant (fun done (d' : Devices) =>
      (d'.keyboard.leftShift = true ↔ Held 0x2a done) ∧
        (d'.keyboard.rightShift = true ↔ Held 0x36 done))
      ⟨iff_of_false Bool.false_ne_true (by decide), iff_of_false Bool.false_ne_true (by decide)⟩
      codes ?_
    intro done code hbefore
    obtain ⟨hleft, hright⟩ := keyboardHandleScancode_shift code
      (runAll keyboardHandleScancode done (keyboardInit d))
    rw [hleft, hright, held_concat, held_concat]
    constructor
    · split
      · exact Iff.rfl
      · exact hbefore.1
    · split
      · exact Iff.rfl
      · exact hbefore.2
  have hheld : ((keyboardAfter codes d).leftShift || (keyboardAfter codes d).rightShift) = true ↔
      Held 0x2a codes ∨ Held 0x36 codes := by rw [Bool.or_eq_true, hbits.1, hbits.2]
  simp only [Keyboard.decode, hheld, mapFor]
  split <;> rfl

/-- Leaving out prefixed codes that are no shift codes, no shift code is left out. -/
theorem filter_unprefixed {key : UInt8} (hkey : key = 0x2a ∨ key = 0x36) :
    ∀ (codes : List UInt8) (behind : Bool),
      codes.IsChain (fun c next => c = 0xe0 → ¬ ShiftCode next) →
      (∀ c ∈ codes.head?, behind = true → ¬ ShiftCode c) →
      ((unprefixed behind codes).map press).filter (fun e => e.1 = key) =
        (codes.map press).filter (fun e => e.1 = key) := by
  intro codes
  induction codes with
  | nil => intro _ _ _; rfl
  | cons c codes ih =>
    intro behind hchain hfirst
    have hother : ¬ ShiftCode c → (press c).1 ≠ key := fun hnot heq =>
      hnot (hkey.imp (fun h => heq.trans h) fun h => heq.trans h)
    have hnext : ∀ after, (after = true → c = 0xe0) →
        ((unprefixed after codes).map press).filter (fun e => e.1 = key) =
          (codes.map press).filter (fun e => e.1 = key) := by
      intro after hafter
      refine ih after hchain.tail fun c' hc' hset => ?_
      obtain ⟨rest, rfl⟩ : ∃ rest, codes = c' :: rest := by
        match codes with
        | [] => simp at hc'
        | _ :: rest => exact ⟨rest, by simp_all⟩
      exact (List.isChain_cons_cons.mp hchain).1 (hafter hset)
    rw [unprefixed]
    by_cases hcode : c = 0xe0
    · have hplain : ¬ ShiftCode c := by rw [hcode, ShiftCode]; decide
      rw [if_pos hcode, hnext true fun _ => hcode, List.map_cons,
        List.filter_cons_of_neg (by simpa using hother hplain)]
    rw [if_neg hcode]
    cases behind with
    | true =>
      rw [if_pos rfl, hnext false (by simp), List.map_cons,
        List.filter_cons_of_neg (by simpa using hother (hfirst c rfl rfl))]
    | false =>
      rw [if_neg Bool.false_ne_true, List.map_cons, List.map_cons, List.filter_cons,
        List.filter_cons, hnext false (by simp)]

/-- **With no shift code behind a prefix**, plain keys are decoded right in every state of the
    run.

    `h` is on the codes alone: behind `0xe0` there is no code of a shift key. `d` is the keyboard
    in any state, and `done` any part of the run, so the two agree all the way. -/
theorem decode_follows_shift
    (h : codes.IsChain fun c next => c = 0xe0 → ¬ ShiftCode next) (d : Devices) :
    ∀ done, done <+: codes → ShiftsRight done d := by
  intro done hdone key
  have hchain := h.prefix hdone
  have hheld : ∀ key, key = 0x2a ∨ key = 0x36 →
      (Held key (unprefixed false done) ↔ Held key done) := by
    intro key hkey
    rw [Held, Held, latest, latest, filter_unprefixed hkey done false hchain (by simp)]
  rw [decode_exact, mapFor, mapFor]
  simp only [hheld 0x2a (Or.inl rfl), hheld 0x36 (Or.inr rfl)]

/-- `decode_follows_shift` where the cursor key `0xe0 0x48` is pressed while the left shift is
    held. -/
theorem decode_follows_shift_cursor :
    ShiftsRight [0x2a, 0xe0, 0x48] Devices.loaded :=
  decode_follows_shift (by simp [ShiftCode]; decide) Devices.loaded [0x2a, 0xe0, 0x48]
    List.prefix_rfl

/-- The fake shift `0xe0 0x2a` in front of a navigation key: the key of `a` then reads `A`. -/
theorem fake_shift_shifts :
    ¬ ∀ (codes : List UInt8) (d : Devices), ShiftsRight codes d := by
  intro h
  have hkey := h [0xe0, 0x2a] Devices.loaded 0x1e
  rw [decode_exact] at hkey
  revert hkey
  decide +kernel

end Proof
end BumbelBee
