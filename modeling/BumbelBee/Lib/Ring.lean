import Mathlib.Data.List.Basic
import Mathlib.Data.Nat.ModEq
import Mathlib.Logic.Function.Basic

/-!
# Ring buffers

A ring is `cap` slots, the slot of the oldest element and a count, kept in variables of
their own as C programs keep them. `window` is the queue these stand for, oldest first; the
two lemmas about it are what putting an element behind the last and taking the first away do
to the queue.
-/

namespace BumbelBee
namespace Lib

variable {α : Type} {cap : Nat}

/-- The `count` elements from slot `head` on, round the end. -/
def window (cap : Nat) (slots : Nat → α) (head count : Nat) : List α :=
  (List.range count).map fun i => slots ((head + i) % cap)

@[simp] theorem length_window (slots : Nat → α) (head count : Nat) :
    (window cap slots head count).length = count := by
  simp [window]

@[simp] theorem window_zero (slots : Nat → α) (head : Nat) : window cap slots head 0 = [] := rfl

/-- Where a head stands depends on its slot only. -/
theorem window_mod (slots : Nat → α) (head count : Nat) :
    window cap slots (head % cap) count = window cap slots head count := by
  simp only [window, Nat.mod_add_mod]

/-- Two elements less than `cap` apart do not share a slot. -/
theorem slot_ne {head i j : Nat} (hij : i < j) (hj : j < cap) :
    (head + i) % cap ≠ (head + j) % cap := by
  intro h
  have hmod : i ≡ j [MOD cap] := Nat.ModEq.add_left_cancel' head h
  rw [Nat.ModEq, Nat.mod_eq_of_lt (hij.trans hj), Nat.mod_eq_of_lt hj] at hmod
  exact absurd hmod (Nat.ne_of_lt hij)

/-- **Putting an element behind the last**, while there is a slot left. -/
theorem window_put (slots : Nat → α) (head : Nat) {count : Nat} (x : α) (hroom : count < cap) :
    window cap (Function.update slots ((head + count) % cap) x) head (count + 1) =
      window cap slots head count ++ [x] := by
  simp only [window, List.range_succ, List.map_append, List.map_cons, List.map_nil,
    Function.update_self]
  congr 1
  refine List.map_congr_left fun i hi => ?_
  exact Function.update_of_ne (slot_ne (List.mem_range.mp hi) hroom) _ _

/-- **Taking the first away**: it stands in slot `head`, and the next slot is the new head. -/
theorem window_succ (slots : Nat → α) (head count : Nat) :
    window cap slots head (count + 1) =
      slots (head % cap) :: window cap slots ((head + 1) % cap) count := by
  rw [window, List.range_succ_eq_map, List.map_cons, List.map_map]
  congr 1
  refine List.map_congr_left fun i _ => ?_
  rw [Function.comp_apply, Nat.mod_add_mod, Nat.add_assoc, Nat.add_comm 1 i]

/-! ## The newest elements -/

/-- What a full ring keeps of a log: the last `cap` elements. -/
def newest (cap : Nat) (log : List α) : List α := log.drop (log.length - cap)

@[simp] theorem newest_nil : newest cap ([] : List α) = [] := by simp [newest]

@[simp] theorem length_newest (log : List α) : (newest cap log).length = min log.length cap := by
  rw [newest, List.length_drop]
  omega

theorem newest_map {β : Type} (f : α → β) (log : List α) :
    newest cap (log.map f) = (newest cap log).map f := by
  rw [newest, newest, List.length_map, List.map_drop]

/-- **One more element**: the oldest goes when the ring is full. -/
theorem newest_append_singleton (hcap : 0 < cap) (log : List α) (x : α) :
    newest cap (log ++ [x]) =
      (if (newest cap log).length = cap then (newest cap log).drop 1 else newest cap log) ++ [x] := by
  rw [length_newest, newest, List.length_append, List.length_singleton,
    List.drop_append_of_le_length (by omega)]
  congr 1
  split
  · rw [newest, List.drop_drop]
    congr 1
    omega
  · rw [newest]
    congr 1
    omega

end Lib
end BumbelBee
