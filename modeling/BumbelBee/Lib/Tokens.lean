import BumbelBee.Lib.Counted

/-!
# Tokens with an owner

A pool of tokens, each marked used or not, and a table of owners that hold one or none. The
books name the tokens that are `lost`: used, and held by nobody. What a taker does with the
token it is handed decides which list it is entered in, and once lost it stays.

`Tokened.owned_iff` is the point: every used token has one owner exactly when none was lost.
-/

namespace BumbelBee
namespace Lib

variable {ι κ : Type} [Fintype ι] [DecidableEq κ]
variable {used : κ → Bool} {holds : ι → Option κ} {lost : List κ} {i : ι} {k : κ}

/-- What is marked used is held once, or lost once. -/
def Tokened (used : κ → Bool) (holds : ι → Option κ) (lost : List κ) : Prop :=
  ∀ k, (used k).toNat = holdersOf holds k + lost.count k

/-- A token changes hands, and the rest of the books stays as it is. -/
theorem Tokened.replace {holds' : ι → Option κ} {lost' : List κ} {mark : Bool}
    (h : Tokened used holds lost)
    (hrest : ∀ k', k' ≠ k → holdersOf holds' k' + lost'.count k' =
      holdersOf holds k' + lost.count k')
    (hmark : mark.toNat = holdersOf holds' k + lost'.count k) :
    Tokened (Function.update used k mark) holds' lost' := by
  intro k'
  by_cases hk : k' = k
  · subst hk
    rw [Function.update_self, hmark]
  · rw [Function.update_of_ne hk, hrest k' hk]
    exact h k'

/-- **Lost**: taken, and handed to nobody. -/
theorem Tokened.lose (h : Tokened used holds lost) (hfree : used k = false) :
    Tokened (Function.update used k true) holds (k :: lost) := by
  have hbefore := h k
  rw [hfree] at hbefore
  refine h.replace (fun k' hk => by rw [List.count_cons_of_ne (Ne.symm hk)]) ?_
  rw [List.count_cons_self, ← Nat.add_assoc, ← hbefore]
  rfl

section
variable [DecidableEq ι]

/-- **Taken**, by an owner that had none. -/
theorem Tokened.take (h : Tokened used holds lost) (hfree : used k = false)
    (hi : holds i = none) :
    Tokened (Function.update used k true) (Function.update holds i (some k)) lost := by
  have hbefore := h k
  rw [hfree] at hbefore
  have htake := holdersOf_take hi k
  refine h.replace (fun k' hk => by rw [htake, oneMore_of_ne hk]) ?_
  rw [htake, oneMore_self, Nat.add_right_comm, ← hbefore]
  rfl

/-- **Given back** by its owner. -/
theorem Tokened.give (h : Tokened used holds lost) (hi : holds i = some k) :
    Tokened (Function.update used k false) (Function.update holds i none) lost := by
  have hdrop := holdersOf_drop hi
  refine h.replace (fun k' hk => by rw [← hdrop, oneMore_of_ne hk]) ?_
  -- it was used once, and that was the owner's
  have hbefore := h k
  have hone := Bool.toNat_le (used k)
  rw [← hdrop, oneMore_self] at hbefore
  rw [Bool.toNat_false]
  omega

/-- **Every used token has one owner, exactly when none was lost.** -/
theorem Tokened.owned_iff (h : Tokened used holds lost) :
    (∀ k, used k = true → ∃! i, holds i = some k) ↔ lost = [] := by
  constructor
  · intro howned
    refine List.eq_nil_iff_forall_not_mem.mpr fun k hk => ?_
    have hbefore := h k
    have hlost := List.count_pos_iff.mpr hk
    cases hused : used k with
    | false =>
      rw [hused, Bool.toNat_false] at hbefore
      omega
    | true =>
      rw [hused, Bool.toNat_true, holdersOf_eq_one_iff.mpr (howned k hused)] at hbefore
      omega
  · rintro rfl k hused
    have hbefore := h k
    rw [hused, List.count_nil] at hbefore
    exact holdersOf_eq_one_iff.mp hbefore.symm

end

end Lib
end BumbelBee
