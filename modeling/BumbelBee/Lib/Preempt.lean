/-!
# A foreground that interrupts cut into

The foreground takes one step at a time; between two steps an interrupt may come, and its
handler runs to the end before the foreground goes on. What every step keeps, and every
handler that comes where it is allowed to, whole runs keep (`Preemptible.run_keeps`). Where each
step brings the foreground nearer to its end, and no handler takes it back, so do enough steps of
a run (`Preemptible.run_ends`): a handler may come as often as it likes.
-/

namespace BumbelBee
namespace Lib

variable {σ η : Type}

/-- What happens next. -/
inductive Slice (η : Type)
  | step
  | interrupt (h : η)
deriving DecidableEq, Repr

structure Preemptible (σ η : Type) where
  step : σ → σ
  handle : η → σ → σ

def Preemptible.slice (p : Preemptible σ η) : Slice η → σ → σ
  | .step, s => p.step s
  | .interrupt h, s => p.handle h s

def Preemptible.run (p : Preemptible σ η) (slices : List (Slice η)) (s : σ) : σ :=
  slices.foldl (fun s slice => p.slice slice s) s

/-- The interrupts of a run, in order. -/
def interrupts : List (Slice η) → List η
  | [] => []
  | .step :: slices => interrupts slices
  | .interrupt h :: slices => h :: interrupts slices

/-- How many steps the foreground takes in a run. -/
def steps : List (Slice η) → Nat
  | [] => 0
  | .step :: slices => steps slices + 1
  | .interrupt _ :: slices => steps slices

/-- Every interrupt of the run comes in a state that allows it. -/
def Preemptible.Allowed (p : Preemptible σ η) (allowed : η → σ → Prop) :
    List (Slice η) → σ → Prop
  | [], _ => True
  | .step :: slices, s => p.Allowed allowed slices (p.step s)
  | .interrupt h :: slices, s => allowed h s ∧ p.Allowed allowed slices (p.handle h s)

/-- **The run rule.** The invariant may speak of the interrupts seen so far. -/
theorem Preemptible.run_keeps (p : Preemptible σ η) {allowed : η → σ → Prop}
    (inv : List η → σ → Prop) (hstep : ∀ seen s, inv seen s → inv seen (p.step s))
    (hhandle : ∀ seen h s, allowed h s → inv seen s → inv (seen ++ [h]) (p.handle h s)) :
    ∀ (slices : List (Slice η)) (seen : List η) {s : σ}, inv seen s → p.Allowed allowed slices s →
      inv (seen ++ interrupts slices) (p.run slices s) := by
  intro slices
  induction slices with
  | nil =>
    intro seen s h _
    rw [interrupts, List.append_nil]
    exact h
  | cons slice slices ih =>
    intro seen s h hallowed
    cases slice with
    | step => exact ih seen (hstep seen s h) hallowed
    | interrupt i =>
      have hrun := ih (seen ++ [i]) (hhandle seen i s hallowed.1 h) hallowed.2
      rw [List.append_assoc] at hrun
      exact hrun

/-- **The progress rule**, for a bound on the steps that are left. -/
theorem Preemptible.run_ends (p : Preemptible σ η) {allowed : η → σ → Prop}
    (inv : σ → Prop) (left : σ → Nat)
    (hstep : ∀ s, inv s → inv (p.step s) ∧ left (p.step s) ≤ left s - 1)
    (hhandle : ∀ h s, allowed h s → inv s → inv (p.handle h s) ∧ left (p.handle h s) ≤ left s) :
    ∀ (slices : List (Slice η)) {s : σ}, inv s → p.Allowed allowed slices s →
      left (p.run slices s) ≤ left s - steps slices := by
  intro slices
  induction slices with
  | nil => exact fun _ _ => Nat.le_refl _
  | cons slice slices ih =>
    intro s h hallowed
    cases slice with
    | step =>
      obtain ⟨hinv, hleft⟩ := hstep s h
      have hrun : left (p.run slices (p.step s)) ≤ _ := ih hinv hallowed
      show left (p.run slices (p.step s)) ≤ left s - (steps slices + 1)
      omega
    | interrupt i =>
      obtain ⟨hinv, hleft⟩ := hhandle i s hallowed.1 h
      have hrun : left (p.run slices (p.handle i s)) ≤ _ := ih hinv hallowed.2
      show left (p.run slices (p.handle i s)) ≤ left s - steps slices
      omega

end Lib
end BumbelBee
