import Mathlib.Algebra.GroupWithZero.Nat
import Mathlib.Algebra.Group.Pi.Basic
import BumbelBee.Lib.Tally

/-!
# Counted tables

A table of entries that stay as long as somebody holds them: each entry has a key and counts
its holders. `held` says how many there are, key by key; it is what the counts are measured
against and is stored nowhere. Some entries may be `kept` whether anybody holds them or not.
`Counted` is the agreement of the two, and the rules below say what a table has to do when
`held` goes up or down by one.
-/

namespace BumbelBee
namespace Lib

variable {ι κ α : Type} {kept : κ → Prop} {key : α → κ} {count : α → Nat} {table : ι → Option α}
  {held : κ → Nat}

/-- Every entry counts its holders and has one or is kept, and what is held or kept has an
    entry. -/
structure Counted (kept : κ → Prop) (key : α → κ) (count : α → Nat) (table : ι → Option α)
    (held : κ → Nat) : Prop where
  exact : ∀ i a, table i = some a → count a = held (key a)
  used : ∀ i a, table i = some a → kept (key a) ∨ 0 < held (key a)
  distinct : ∀ i j a b, table i = some a → table j = some b → key a = key b → i = j
  present : ∀ k, kept k ∨ 0 < held k → ∃ i a, table i = some a ∧ key a = k

theorem Counted.congr {held' : κ → Nat} (h : Counted kept key count table held)
    (hheld : ∀ k, held' k = held k) : Counted kept key count table held' := by
  rw [show held' = held from funext hheld]
  exact h

section
variable [DecidableEq ι] [DecidableEq κ]

/-- One more holder of `k`. -/
def oneMore (k : κ) (held : κ → Nat) : κ → Nat := held + Pi.single k 1

theorem oneMore_self (k : κ) (held : κ → Nat) : oneMore k held k = held k + 1 := by
  simp [oneMore]

theorem oneMore_of_ne {k k' : κ} (h : k' ≠ k) (held : κ → Nat) : oneMore k held k' = held k' := by
  simp [oneMore, Pi.single_eq_of_ne h]

theorem le_oneMore (k k' : κ) (held : κ → Nat) : held k' ≤ oneMore k held k' := by
  simp [oneMore]

/-- An entry with the same key in the place of another. -/
theorem Counted.replace {held' : κ → Nat} (h : Counted kept key count table held) {i : ι} {a a' : α}
    (hi : table i = some a) (hkey : key a' = key a) (hcount : count a' = held' (key a))
    (hpos : kept (key a) ∨ 0 < held' (key a)) (hrest : ∀ k, k ≠ key a → held' k = held k) :
    Counted kept key count (Function.update table i (some a')) held' := by
  have hentry : ∀ {j : ι} {b : α}, Function.update table i (some a') j = some b →
      j = i ∧ b = a' ∨ j ≠ i ∧ table j = some b ∧ key b ≠ key a := by
    intro j b hj
    by_cases hji : j = i
    · subst hji
      rw [Function.update_self, Option.some.injEq] at hj
      exact Or.inl ⟨rfl, hj.symm⟩
    · rw [Function.update_of_ne hji] at hj
      exact Or.inr ⟨hji, hj, fun hk => hji (h.distinct j i b a hj hi hk)⟩
  constructor
  · intro j b hj
    rcases hentry hj with ⟨-, rfl⟩ | ⟨-, hold, hne⟩
    · rw [hkey, hcount]
    · rw [hrest _ hne]
      exact h.exact j b hold
  · intro j b hj
    rcases hentry hj with ⟨-, rfl⟩ | ⟨-, hold, hne⟩
    · rw [hkey]
      exact hpos
    · rw [hrest _ hne]
      exact h.used j b hold
  · intro j j' b b' hj hj' hk
    rcases hentry hj with ⟨rfl, rfl⟩ | ⟨-, hold, hne⟩
    · rcases hentry hj' with ⟨rfl, -⟩ | ⟨-, -, hne'⟩
      · rfl
      · exact absurd (hk.symm.trans hkey) hne'
    · rcases hentry hj' with ⟨rfl, rfl⟩ | ⟨-, hold', -⟩
      · exact absurd (hk.trans hkey) hne
      · exact h.distinct j j' b b' hold hold' hk
  · intro k hk
    by_cases hka : k = key a
    · exact ⟨i, a', Function.update_self .., hkey.trans hka.symm⟩
    · rw [hrest k hka] at hk
      obtain ⟨j, b, hj, hb⟩ := h.present k hk
      refine ⟨j, b, ?_, hb⟩
      rw [Function.update_of_ne]
      · exact hj
      · rintro rfl
        rw [hi, Option.some.injEq] at hj
        exact hka (by rw [← hb, ← hj])

/-- **Retain**: a holder more, and the entry counts it. -/
theorem Counted.retain (h : Counted kept key count table held) {i : ι} {a a' : α}
    (hi : table i = some a) (hkey : key a' = key a) (hcount : count a' = count a + 1) :
    Counted kept key count (Function.update table i (some a')) (oneMore (key a) held) := by
  refine h.replace hi hkey ?_ (Or.inr ?_) fun k hk => oneMore_of_ne hk held
  · rw [hcount, h.exact i a hi, oneMore_self]
  · rw [oneMore_self]
    exact Nat.succ_pos _

/-- **Release**, when somebody else still holds on or the entry is kept. -/
theorem Counted.release {i : ι} {a a' : α}
    (h : Counted kept key count table (oneMore (key a) held)) (hi : table i = some a)
    (hkey : key a' = key a) (hcount : count a = count a' + 1)
    (hpos : kept (key a) ∨ 0 < count a') :
    Counted kept key count (Function.update table i (some a')) held := by
  have hexact := h.exact i a hi
  rw [oneMore_self] at hexact
  have hleft : count a' = held (key a) := by omega
  rw [hleft] at hpos
  exact h.replace hi hkey hleft hpos fun k hk => (oneMore_of_ne hk held).symm

/-- **Release** by the last holder: the entry goes. -/
theorem Counted.free {i : ι} {a : α} (h : Counted kept key count table (oneMore (key a) held))
    (hi : table i = some a) (hlast : count a = 1) (hgone : ¬ kept (key a)) :
    Counted kept key count (Function.update table i none) held := by
  have hexact := h.exact i a hi
  rw [oneMore_self] at hexact
  have hentry : ∀ {j : ι} {b : α}, Function.update table i none j = some b →
      table j = some b ∧ key b ≠ key a := by
    intro j b hj
    by_cases hji : j = i
    · subst hji
      rw [Function.update_self] at hj
      cases hj
    · rw [Function.update_of_ne hji] at hj
      exact ⟨hj, fun hk => hji (h.distinct j i b a hj hi hk)⟩
  constructor
  · intro j b hj
    obtain ⟨hold, hne⟩ := hentry hj
    rw [← oneMore_of_ne hne held]
    exact h.exact j b hold
  · intro j b hj
    obtain ⟨hold, hne⟩ := hentry hj
    rw [← oneMore_of_ne hne held]
    exact h.used j b hold
  · intro j j' b b' hj hj' hk
    exact h.distinct j j' b b' (hentry hj).1 (hentry hj').1 hk
  · intro k hk
    have hka : k ≠ key a := by
      rintro rfl
      rcases hk with hkept | hheld
      · exact hgone hkept
      · omega
    obtain ⟨j, b, hj, hb⟩ := h.present k (by rw [oneMore_of_ne hka]; exact hk)
    refine ⟨j, b, ?_, hb⟩
    rw [Function.update_of_ne]
    · exact hj
    · rintro rfl
      rw [hi, Option.some.injEq] at hj
      exact hka (by rw [← hb, ← hj])

/-- **Create**: an entry under a fresh key, for the one who made it. -/
theorem Counted.create (h : Counted kept key count table held) {i : ι} {a : α} (hi : table i = none)
    (hcount : count a = 1) (hfresh : ∀ j b, table j = some b → key b ≠ key a) :
    Counted kept key count (Function.update table i (some a)) (oneMore (key a) held) := by
  have hnone : held (key a) = 0 := by
    by_contra hpos
    obtain ⟨j, b, hj, hb⟩ := h.present (key a) (Or.inr (Nat.pos_of_ne_zero hpos))
    exact hfresh j b hj hb
  have hentry : ∀ {j : ι} {b : α}, Function.update table i (some a) j = some b →
      j = i ∧ b = a ∨ table j = some b ∧ key b ≠ key a := by
    intro j b hj
    by_cases hji : j = i
    · subst hji
      rw [Function.update_self, Option.some.injEq] at hj
      exact Or.inl ⟨rfl, hj.symm⟩
    · rw [Function.update_of_ne hji] at hj
      exact Or.inr ⟨hj, hfresh j b hj⟩
  constructor
  · intro j b hj
    rcases hentry hj with ⟨-, rfl⟩ | ⟨hold, hne⟩
    · rw [hcount, oneMore_self, hnone]
    · rw [oneMore_of_ne hne]
      exact h.exact j b hold
  · intro j b hj
    rcases hentry hj with ⟨-, rfl⟩ | ⟨hold, hne⟩
    · rw [oneMore_self]
      exact Or.inr (Nat.succ_pos _)
    · rw [oneMore_of_ne hne]
      exact h.used j b hold
  · intro j j' b b' hj hj' hk
    rcases hentry hj with ⟨rfl, rfl⟩ | ⟨hold, hne⟩
    · rcases hentry hj' with ⟨rfl, -⟩ | ⟨-, hne'⟩
      · rfl
      · exact absurd hk.symm hne'
    · rcases hentry hj' with ⟨rfl, rfl⟩ | ⟨hold', -⟩
      · exact absurd hk hne
      · exact h.distinct j j' b b' hold hold' hk
  · intro k hk
    by_cases hka : k = key a
    · exact ⟨i, a, Function.update_self .., hka.symm⟩
    · rw [oneMore_of_ne hka] at hk
      obtain ⟨j, b, hj, hb⟩ := h.present k hk
      refine ⟨j, b, ?_, hb⟩
      rw [Function.update_of_ne]
      · exact hj
      · rintro rfl
        rw [hi] at hj
        cases hj

end

/-! ## Holders in a table of their own

Where the holders are slots of another table, `held` is a count over it, and taking hold or letting
go is an update of one slot.
-/

section
variable [DecidableEq κ] [Fintype ι] {holds : ι → Option κ}

/-- How many slots hold `k`. -/
def holdersOf (holds : ι → Option κ) (k : κ) : Nat := tally (fun k' => if k' = k then 1 else 0) holds

theorem share_holder (k : κ) (entry : Option κ) :
    share (fun k' => if k' = k then 1 else 0) entry = if entry = some k then 1 else 0 := by
  cases entry with
  | none => rfl
  | some k' => simp only [share_some, Option.some.injEq]

theorem holdersOf_le (holds : ι → Option κ) (k : κ) : holdersOf holds k ≤ Fintype.card ι := by
  refine tally_le_card fun i => ?_
  rw [share_holder]
  split <;> omega

theorem holdersOf_pos {i : ι} {k : κ} (h : holds i = some k) : 0 < holdersOf holds k := by
  have hshare := share_le_tally (fun k' => if k' = k then 1 else 0) holds i
  rw [share_holder, if_pos h] at hshare
  exact hshare

theorem holdersOf_eq_zero_iff {k : κ} : holdersOf holds k = 0 ↔ ∀ i, holds i ≠ some k := by
  unfold holdersOf
  rw [tally_eq_zero_iff]
  simp only [share_holder, ite_eq_right_iff, one_ne_zero, imp_false, ne_eq]

/-- An empty slot takes hold. -/
theorem holdersOf_take [DecidableEq ι] {i : ι} (h : holds i = none) (k : κ) :
    holdersOf (Function.update holds i (some k)) = oneMore k (holdersOf holds) := by
  funext k'
  have hupdate := tally_update (fun a => if a = k' then 1 else 0) holds i (some k)
  rw [h, share_none, share_some, Nat.add_zero] at hupdate
  rw [holdersOf, hupdate, oneMore, Pi.add_apply, Pi.single_apply]
  simp only [eq_comm, holdersOf]

/-- A slot lets go. -/
theorem holdersOf_drop [DecidableEq ι] {i : ι} {k : κ} (h : holds i = some k) :
    oneMore k (holdersOf (Function.update holds i none)) = holdersOf holds := by
  rw [← holdersOf_take (Function.update_self i none holds) k, Function.update_idem]
  rw [← h, Function.update_eq_self]

/-- **Held once**: by one slot, and by no other. -/
theorem holdersOf_eq_one_iff [DecidableEq ι] {k : κ} :
    holdersOf holds k = 1 ↔ ∃! i, holds i = some k := by
  have hrest : ∀ i, holds i = some k →
      holdersOf (Function.update holds i none) k + 1 = holdersOf holds k := fun i hi => by
    rw [← oneMore_self, holdersOf_drop hi]
  constructor
  · intro hone
    obtain ⟨i, hi⟩ : ∃ i, holds i = some k := by
      by_contra hnone
      rw [holdersOf_eq_zero_iff.mpr (not_exists.mp hnone)] at hone
      cases hone
    have hothers := holdersOf_eq_zero_iff.mp (Nat.succ.inj ((hrest i hi).trans hone))
    refine ⟨i, hi, fun j hj => ?_⟩
    by_contra hne
    exact hothers j ((Function.update_of_ne hne none holds).trans hj)
  · rintro ⟨i, hi, hunique⟩
    rw [← hrest i hi, holdersOf_eq_zero_iff.mpr fun j hj => ?_]
    by_cases hji : j = i
    · rw [hji, Function.update_self] at hj
      cases hj
    · rw [Function.update_of_ne hji] at hj
      exact hji (hunique j hj)

end
end Lib
end BumbelBee
