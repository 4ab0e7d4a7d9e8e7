import Mathlib.Data.List.Basic
import Mathlib.Logic.Function.Basic

/-!
# Digests

A digest folds a message into a state. When each step is injective, in the state and in the
symbol, no change of a single symbol goes unseen: the states differ behind it, and the rest of
the message keeps them apart.
-/

namespace BumbelBee
namespace Lib

variable {σ α : Type}

/-- A step that loses neither the state nor the symbol. -/
structure Mixing (f : σ → α → σ) : Prop where
  state : ∀ a, Function.Injective (f · a)
  symbol : ∀ s, Function.Injective (f s)

/-- The messages differ in one symbol, and in no other. -/
def OneApart (l l' : List α) : Prop :=
  ∃ before a a' behind, a ≠ a' ∧ l = before ++ a :: behind ∧ l' = before ++ a' :: behind

theorem OneApart.surround {l l' : List α} (h : OneApart l l') (before behind : List α) :
    OneApart (before ++ l ++ behind) (before ++ l' ++ behind) := by
  obtain ⟨x, a, a', y, hne, rfl, rfl⟩ := h
  exact ⟨before ++ x, a, a', y ++ behind, hne, by simp, by simp⟩

theorem OneApart.set {l : List α} {k : Nat} (hk : k < l.length) {a : α} (hne : l[k] ≠ a) :
    OneApart l (l.set k a) := by
  refine ⟨l.take k, l[k], a, l.drop (k + 1), hne, ?_, ?_⟩
  · rw [List.getElem_cons_drop, List.take_append_drop]
  · rw [List.set_eq_take_append_cons_drop, if_pos hk]

/-- The rest of a message keeps two states apart. -/
theorem Mixing.foldl_injective {f : σ → α → σ} (h : Mixing f) :
    ∀ l : List α, Function.Injective fun s => l.foldl f s
  | [] => fun _ _ heq => heq
  | a :: l => fun _ _ heq => h.state a (h.foldl_injective l heq)

/-- **A change of one symbol changes the digest.** -/
theorem Mixing.foldl_ne {f : σ → α → σ} (h : Mixing f) {l l' : List α} (hapart : OneApart l l')
    (s : σ) : l.foldl f s ≠ l'.foldl f s := by
  obtain ⟨before, a, a', behind, hne, rfl, rfl⟩ := hapart
  rw [List.foldl_append, List.foldl_append, List.foldl_cons, List.foldl_cons]
  exact fun heq => hne (h.symbol _ (h.foldl_injective behind heq))

end Lib
end BumbelBee
