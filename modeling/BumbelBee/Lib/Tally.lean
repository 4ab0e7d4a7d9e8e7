import Mathlib.Algebra.BigOperators.Group.Finset.Basic
import Mathlib.Algebra.Order.BigOperators.Group.Finset

/-!
# Tallies over a finite table

A table maps finitely many slots to an entry or nothing; its tally adds up what each entry
counts for. Changing one slot changes the tally by that slot's share, and a change that
leaves every share alone leaves the tally alone.
-/

namespace BumbelBee
namespace Lib

variable {ι α : Type} [Fintype ι]

def share (f : α → Nat) (entry : Option α) : Nat := (entry.map f).getD 0

/-- What the table's entries count for, together. -/
def tally (f : α → Nat) (table : ι → Option α) : Nat := ∑ i, share f (table i)

@[simp] theorem share_none (f : α → Nat) : share f none = 0 := rfl
@[simp] theorem share_some (f : α → Nat) (a : α) : share f (some a) = f a := rfl

theorem tally_congr {f : α → Nat} {table table' : ι → Option α}
    (h : ∀ i, share f (table' i) = share f (table i)) : tally f table' = tally f table :=
  Finset.sum_congr rfl fun i _ => h i

/-- **One slot changed.** -/
theorem tally_update [DecidableEq ι] (f : α → Nat) (table : ι → Option α) (i : ι)
    (entry : Option α) :
    tally f (Function.update table i entry) + share f (table i) =
      tally f table + share f entry := by
  have hrest : ∑ j ∈ Finset.univ.erase i, share f (Function.update table i entry j) =
      ∑ j ∈ Finset.univ.erase i, share f (table j) :=
    Finset.sum_congr rfl fun j hj => by rw [Function.update_of_ne (Finset.ne_of_mem_erase hj)]
  have hnew := Finset.add_sum_erase Finset.univ
    (fun j => share f (Function.update table i entry j)) (Finset.mem_univ i)
  have hold := Finset.add_sum_erase Finset.univ (fun j => share f (table j)) (Finset.mem_univ i)
  simp only [Function.update_self] at hnew
  unfold tally
  omega

/-- A slot's share is part of the tally. -/
theorem share_le_tally (f : α → Nat) (table : ι → Option α) (i : ι) :
    share f (table i) ≤ tally f table :=
  Finset.single_le_sum (f := fun j => share f (table j)) (fun _ _ => Nat.zero_le _)
    (Finset.mem_univ i)

theorem tally_eq_zero_iff {f : α → Nat} {table : ι → Option α} :
    tally f table = 0 ↔ ∀ i, share f (table i) = 0 := by
  unfold tally
  rw [Finset.sum_eq_zero_iff]
  simp

theorem tally_le_card {f : α → Nat} {table : ι → Option α} (h : ∀ i, share f (table i) ≤ 1) :
    tally f table ≤ Fintype.card ι := by
  unfold tally
  calc ∑ i, share f (table i) ≤ ∑ _i : ι, 1 := Finset.sum_le_sum fun i _ => h i
    _ = Fintype.card ι := by simp

end Lib
end BumbelBee
