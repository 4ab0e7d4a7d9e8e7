import Mathlib.Logic.Function.Iterate
import Mathlib.Data.List.Infix

/-!
# Deterministic processes and what they emit

A process moves from state to state and emits something, or nothing, on the way. Its
emissions after `n` steps are a prefix of those after more steps (`emitted_prefix`), so a
state of the run determines its own next emission in every longer run (`emitted_next`).
-/

namespace BumbelBee
namespace Lib

variable {σ α : Type}

structure Process (σ α : Type) where
  next : σ → σ
  emit : σ → Option α

/-- The state after `n` steps. -/
def Process.after (p : Process σ α) (s : σ) (n : Nat) : σ := p.next^[n] s

/-- What was emitted in the first `n` steps. -/
def Process.emitted (p : Process σ α) (s : σ) : Nat → List α
  | 0 => []
  | n + 1 => p.emitted s n ++ (p.emit (p.after s n)).toList

@[simp] theorem Process.after_zero (p : Process σ α) (s : σ) : p.after s 0 = s := rfl

theorem Process.after_succ (p : Process σ α) (s : σ) (n : Nat) :
    p.after s (n + 1) = p.next (p.after s n) := Function.iterate_succ_apply' ..

/-- The first step, and then the rest. -/
theorem Process.after_next (p : Process σ α) (s : σ) (n : Nat) :
    p.after (p.next s) n = p.after s (n + 1) := (Function.iterate_succ_apply ..).symm

theorem Process.after_add (p : Process σ α) (s : σ) (n m : Nat) :
    p.after (p.after s n) m = p.after s (n + m) := by
  rw [Nat.add_comm]
  exact (Function.iterate_add_apply ..).symm

@[simp] theorem Process.emitted_zero (p : Process σ α) (s : σ) : p.emitted s 0 = [] := rfl

theorem Process.emitted_succ (p : Process σ α) (s : σ) (n : Nat) :
    p.emitted s (n + 1) = p.emitted s n ++ (p.emit (p.after s n)).toList := rfl

/-- One emission a step at most. -/
theorem Process.length_emitted_le (p : Process σ α) (s : σ) (n : Nat) :
    (p.emitted s n).length ≤ n := by
  induction n with
  | zero => exact Nat.le_refl 0
  | succ n ih =>
    rw [p.emitted_succ, List.length_append]
    have hone : (p.emit (p.after s n)).toList.length ≤ 1 := by
      cases p.emit (p.after s n) <;> simp
    exact Nat.add_le_add ih hone

/-- What every step preserves, every state has. -/
theorem Process.after_induction {p : Process σ α} {P : σ → Prop} {s : σ} (h : P s)
    (step : ∀ s, P s → P (p.next s)) : ∀ n, P (p.after s n)
  | 0 => h
  | n + 1 => by
    rw [p.after_succ]
    exact step _ (p.after_induction h step n)

theorem Process.emitted_prefix (p : Process σ α) (s : σ) {n : Nat} :
    ∀ {m : Nat}, n ≤ m → p.emitted s n <+: p.emitted s m
  | 0, h => by rw [Nat.le_zero.mp h]
  | m + 1, h => by
    rcases Nat.le_succ_iff.mp h with h | rfl
    · exact (p.emitted_prefix s h).trans (List.prefix_append ..)
    · exact List.prefix_rfl

/-- **The next emission** of a run, as any longer run shows it. -/
theorem Process.emitted_next {p : Process σ α} {s : σ} {n m : Nat} {a : α}
    (h : p.emit (p.after s n) = some a) (hlen : (p.emitted s n).length < (p.emitted s m).length) :
    (p.emitted s m)[(p.emitted s n).length] = a := by
  have hsucc : p.emitted s (n + 1) = p.emitted s n ++ [a] := by rw [p.emitted_succ, h]; rfl
  have hle : n + 1 ≤ m := Nat.lt_of_not_le fun hle =>
    Nat.not_lt_of_le (p.emitted_prefix s hle).length_le hlen
  obtain ⟨rest, hrest⟩ := p.emitted_prefix s hle
  simp [← hrest, hsucc]

/-- A process that stays where it is, and is silent there, stays silent. -/
theorem Process.emitted_fixed {p : Process σ α} {s : σ} {n : Nat}
    (hnext : p.next (p.after s n) = p.after s n) (hemit : p.emit (p.after s n) = none) :
    ∀ {m : Nat}, n ≤ m → p.after s m = p.after s n ∧ p.emitted s m = p.emitted s n
  | 0, h => by rw [Nat.le_zero.mp h]; exact ⟨rfl, rfl⟩
  | m + 1, h => by
    rcases Nat.le_succ_iff.mp h with h | rfl
    · obtain ⟨hafter, hemitted⟩ := p.emitted_fixed hnext hemit h
      rw [p.after_succ, p.emitted_succ, hafter, hnext, hemit, hemitted]
      exact ⟨rfl, List.append_nil _⟩
    · exact ⟨rfl, rfl⟩

end Lib
end BumbelBee
