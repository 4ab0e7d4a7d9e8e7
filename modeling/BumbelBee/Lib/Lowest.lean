import Mathlib.Data.List.Induction
import Mathlib.Order.Bounds.Basic

/-!
# A running least that takes a value for "none yet"

The loop keeps one variable and starts it at a value that also means that nothing has been
seen. Where that value turns up in the list, the loop starts over behind it: the result is
still the least exactly when the value is not in the list, or comes last
(`lowest_isLeast_iff`).
-/

namespace BumbelBee
namespace Lib

variable {α : Type} [LinearOrder α] {unset : α} {xs : List α}

/-- The least so far, `unset` standing for none. -/
def lowest (unset : α) (xs : List α) : α :=
  xs.foldl (fun least x => if least = unset ∨ x < least then x else least) unset

/-- The greatest so far, from `start` on. -/
def highest (start : α) (xs : List α) : α :=
  xs.foldl (fun greatest x => if x > greatest then x else greatest) start

@[simp] theorem lowest_nil : lowest unset [] = unset := rfl

theorem lowest_concat (xs : List α) (x : α) : lowest unset (xs ++ [x]) =
    if lowest unset xs = unset ∨ x < lowest unset xs then x else lowest unset xs :=
  List.foldl_append

theorem highest_concat (start : α) (xs : List α) (x : α) : highest start (xs ++ [x]) =
    if x > highest start xs then x else highest start xs :=
  List.foldl_append

omit [LinearOrder α] in
theorem mem_concat_eq (xs : List α) (x : α) : {y | y ∈ xs ++ [x]} = insert x {y | y ∈ xs} := by
  ext y
  simp [or_comm]

/-- **Without the value in the list**, the result is the least. -/
theorem lowest_isLeast (h : unset ∉ xs) (hne : xs ≠ []) :
    IsLeast {x | x ∈ xs} (lowest unset xs) := by
  induction xs using List.reverseRecOn with
  | nil => exact absurd rfl hne
  | append_singleton xs x ih =>
    rw [lowest_concat]
    by_cases hnone : xs = []
    · subst hnone
      simp
    have hold := ih (fun hmem => h (List.mem_append_left [x] hmem)) hnone
    have hset : lowest unset xs ≠ unset := fun heq =>
      h (List.mem_append_left [x] (heq ▸ hold.1))
    rw [mem_concat_eq]
    by_cases hless : x < lowest unset xs
    · rw [if_pos (Or.inr hless)]
      have hinsert := hold.insert x
      rwa [min_eq_left hless.le] at hinsert
    · rw [if_neg (not_or.mpr ⟨hset, hless⟩)]
      have hinsert := hold.insert x
      rwa [min_eq_right (not_lt.mp hless)] at hinsert

/-- The variable is unset at the end when the value came last. -/
theorem lowest_eq_unset (hbot : ∀ x, unset ≤ x) (hne : xs ≠ []) :
    lowest unset xs = unset ↔ xs.getLast? = some unset := by
  obtain ⟨xs, x, rfl⟩ : ∃ l a, xs = l ++ [a] := ⟨_, _, (List.dropLast_concat_getLast hne).symm⟩
  rw [lowest_concat, List.getLast?_concat, Option.some.injEq]
  split
  · exact Iff.rfl
  · rename_i hkept
    obtain ⟨hset, hless⟩ := not_or.mp hkept
    exact iff_of_false hset fun heq => hset
      (le_antisymm ((not_lt.mp hless).trans heq.le) (hbot _))

/-- **When the result is the least.** -/
theorem lowest_isLeast_iff (hbot : ∀ x, unset ≤ x) (hne : xs ≠ []) :
    IsLeast {x | x ∈ xs} (lowest unset xs) ↔ unset ∉ xs ∨ xs.getLast? = some unset := by
  constructor
  · intro hleast
    by_cases hmem : unset ∈ xs
    · exact Or.inr ((lowest_eq_unset hbot hne).mp (le_antisymm (hleast.2 hmem) (hbot _)))
    · exact Or.inl hmem
  · rintro (hnot | hlast)
    · exact lowest_isLeast hnot hne
    · rw [(lowest_eq_unset hbot hne).mpr hlast]
      exact ⟨List.mem_of_getLast? hlast, fun x _ => hbot x⟩

/-- **The running greatest**, from a value that nothing is below. -/
theorem highest_isGreatest {start : α} (hbot : ∀ x, start ≤ x) (hne : xs ≠ []) :
    IsGreatest {x | x ∈ xs} (highest start xs) := by
  induction xs using List.reverseRecOn with
  | nil => exact absurd rfl hne
  | append_singleton xs x ih =>
    have hmax : highest start (xs ++ [x]) = max x (highest start xs) := by
      rw [highest_concat, max_comm, max_def_lt]
    rw [hmax, mem_concat_eq]
    by_cases hnone : xs = []
    · subst hnone
      simp [highest, hbot x]
    · exact (ih hnone).insert x

end Lib
end BumbelBee
