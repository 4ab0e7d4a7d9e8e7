import Mathlib.Algebra.Group.Fin.Basic
import Mathlib.Data.List.FinRange
import Mathlib.Data.Nat.ModEq

/-!
# Going round

`n` places stand in a circle. `ahead a b` is how far `b` lies ahead of `a`; whoever looks for
the first place with a property, from the one behind his own on, passes none that has it.
-/

namespace BumbelBee
namespace Lib

variable {n : Nat} [NeZero n]

/-- The number of steps from `a` on to `b`. -/
def ahead (a b : Fin n) : Nat := (b - a).val

omit [NeZero n] in
theorem ahead_lt (a b : Fin n) : ahead a b < n := (b - a).isLt

@[simp] theorem ahead_self (a : Fin n) : ahead a a = 0 := by
  rw [ahead, sub_self]
  rfl

/-- Going so far leads there. -/
theorem add_ahead (a b : Fin n) : (a.val + ahead a b) % n = b.val := by
  have hsum : a + (b - a) = b := by rw [add_sub_cancel]
  rw [ahead, ← Fin.val_add, hsum]

/-- And nothing else below `n` does. -/
theorem ahead_unique {a b : Fin n} {d : Nat} (hd : d < n) (h : (a.val + d) % n = b.val) :
    ahead a b = d := by
  have heq : (a.val + ahead a b) % n = (a.val + d) % n := (add_ahead a b).trans h.symm
  have hmod : ahead a b ≡ d [MOD n] := Nat.ModEq.add_left_cancel' a.val heq
  rwa [Nat.ModEq, Nat.mod_eq_of_lt (ahead_lt a b), Nat.mod_eq_of_lt hd] at hmod

theorem ahead_injective {a b b' : Fin n} (h : ahead a b = ahead a b') : b = b' :=
  Fin.ext (by rw [← add_ahead a b, h, add_ahead])

/-- **The first place found**, behind `c`, is no further than any that has the property. -/
theorem ahead_find_le {p : Fin n → Bool} {c k j : Fin n}
    (hfound : ((List.finRange n).map fun i => c + 1 + i).find? p = some k) (hj : p j = true) :
    ahead (c + 1) k ≤ ahead (c + 1) j := by
  rw [List.find?_map] at hfound
  obtain ⟨i, hi, rfl⟩ := Option.map_eq_some_iff.mp hfound
  obtain ⟨-, m, hm, hmi, hbefore⟩ := List.find?_eq_some_iff_getElem.mp hi
  rw [List.getElem_finRange] at hmi
  have hahead : ahead (c + 1) (c + 1 + i) = i.val := by
    rw [ahead, add_sub_cancel_left]
  rw [hahead]
  refine Nat.le_of_not_lt fun hless => ?_
  -- `j` would have been found before
  have hmval : i.val = m := by rw [← hmi]; rfl
  have hnot := hbefore (ahead (c + 1) j) (by omega)
  have hback : c + 1 + (j - (c + 1)) = j := by rw [add_sub_cancel]
  rw [List.getElem_finRange, Function.comp_apply] at hnot
  refine absurd hnot ?_
  show ¬ (!p (c + 1 + (j - (c + 1)))) = true
  rw [hback, hj]
  exact Bool.false_ne_true

/-- Somebody who stands between `i` and `j` comes to `j` before he comes to `i`. -/
theorem ahead_between {i c j k : Fin n} (hc : ahead i c < ahead i j)
    (hk : ahead (c + 1) k ≤ ahead (c + 1) j) : ahead i c < ahead i k ∧ ahead i k ≤ ahead i j := by
  have hlt := ahead_lt i j
  have hsucc : (c + 1).val = (c.val + 1) % n := by rw [Fin.val_add, Fin.val_one', Nat.add_mod_mod]
  have hplace : c.val = (i.val + ahead i c) % n := (add_ahead i c).symm
  have hleft : ahead (c + 1) j = ahead i j - ahead i c - 1 := by
    refine ahead_unique (by omega) ?_
    rw [hsucc, hplace, ← add_ahead i j, Nat.mod_add_mod, Nat.add_assoc, Nat.mod_add_mod]
    congr 1
    omega
  have hright : ahead i k = ahead i c + 1 + ahead (c + 1) k := by
    refine ahead_unique (by omega) ?_
    rw [← add_ahead (c + 1) k, hsucc, hplace, Nat.mod_add_mod, Nat.add_assoc (_ % n),
      Nat.mod_add_mod]
    congr 1
    omega
  omega

end Lib
end BumbelBee
