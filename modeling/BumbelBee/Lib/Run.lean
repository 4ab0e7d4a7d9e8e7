import Mathlib.Data.List.Induction
import Mathlib.Data.List.Infix

/-!
# Runs of an operational interface

A module of a program is used through operations, each of which takes its state to the next.
`runAll` is what a sequence of them does. An invariant may speak of the operations made so
far, and the operations may be restricted to states that allow them: `runAll_keeps` is the
induction that goes with both.
-/

namespace BumbelBee
namespace Lib

variable {σ ω β : Type}

/-- The state after a sequence of operations. -/
def runAll (step : ω → σ → σ) (ops : List ω) (s : σ) : σ := ops.foldl (fun s op => step op s) s

/-- Every operation is made in a state that allows it. -/
def EachStep (step : ω → σ → σ) (allowed : ω → σ → Prop) : List ω → σ → Prop
  | [], _ => True
  | op :: ops, s => allowed op s ∧ EachStep step allowed ops (step op s)

/-- What the operations of a run put out, in order. -/
def outputs (step : ω → σ → σ) (out : ω → σ → List β) : List ω → σ → List β
  | [], _ => []
  | op :: ops, s => out op s ++ outputs step out ops (step op s)

variable {step : ω → σ → σ} {allowed : ω → σ → Prop} {out : ω → σ → List β}

@[simp] theorem runAll_nil (s : σ) : runAll step [] s = s := rfl

@[simp] theorem runAll_cons (op : ω) (ops : List ω) (s : σ) :
    runAll step (op :: ops) s = runAll step ops (step op s) := rfl

theorem runAll_append (ops ops' : List ω) (s : σ) :
    runAll step (ops ++ ops') s = runAll step ops' (runAll step ops s) := List.foldl_append

/-- One operation more. -/
theorem runAll_snoc (ops : List ω) (op : ω) (s : σ) :
    runAll step (ops ++ [op]) s = step op (runAll step ops s) := runAll_append ops [op] s

@[simp] theorem outputs_nil (s : σ) : outputs step out [] s = [] := rfl

theorem outputs_snoc (op : ω) : ∀ (ops : List ω) (s : σ),
    outputs step out (ops ++ [op]) s = outputs step out ops s ++ out op (runAll step ops s)
  | [], _ => List.append_nil _
  | o :: ops, s => by
    rw [List.cons_append, outputs, outputs_snoc op ops, outputs, List.append_assoc, runAll_cons]

/-- What is put out is put out by some operation. -/
theorem mem_outputs {b : β} {s : σ} : ∀ {ops : List ω}, b ∈ outputs step out ops s ↔
    ∃ done op, done ++ [op] <+: ops ∧ b ∈ out op (runAll step done s) := by
  intro ops
  induction ops using List.reverseRecOn with
  | nil => simp
  | append_singleton ops op ih =>
    rw [outputs_snoc, List.mem_append, ih]
    constructor
    · rintro (⟨done, o, hdone, hb⟩ | hb)
      · exact ⟨done, o, hdone.trans (List.prefix_append _ _), hb⟩
      · exact ⟨ops, op, List.prefix_rfl, hb⟩
    · rintro ⟨done, o, hdone, hb⟩
      rcases List.prefix_concat_iff.mp hdone with heq | hshort
      · obtain ⟨rfl, ho⟩ := List.append_inj' heq rfl
        obtain rfl := List.singleton_inj.mp ho
        exact Or.inr hb
      · exact Or.inl ⟨done, o, hshort, hb⟩

theorem EachStep.append {s : σ} : ∀ {ops ops' : List ω},
    EachStep step allowed (ops ++ ops') s ↔
      EachStep step allowed ops s ∧ EachStep step allowed ops' (runAll step ops s)
  | [], _ => (and_iff_right trivial).symm
  | _ :: _, _ => by
    rw [List.cons_append, EachStep, EachStep.append, EachStep, and_assoc]
    rfl

theorem EachStep.of_forall : ∀ {ops : List ω} {s : σ},
    (∀ op ∈ ops, ∀ s, allowed op s) → EachStep step allowed ops s
  | [], _, _ => trivial
  | op :: _, s, h => ⟨h op List.mem_cons_self s,
      EachStep.of_forall fun op' hop' => h op' (List.mem_cons_of_mem _ hop')⟩

theorem EachStep.and {allowed' : ω → σ → Prop} : ∀ {ops : List ω} {s : σ},
    EachStep step allowed ops s → EachStep step allowed' ops s →
      EachStep step (fun op s => allowed op s ∧ allowed' op s) ops s
  | [], _, _, _ => trivial
  | _ :: _, _, h, h' => ⟨⟨h.1, h'.1⟩, h.2.and h'.2⟩

/-- **The run rule.** What holds at the start, and is kept by every operation made in a state
    that allows it, holds at the end. -/
theorem runAll_keeps (inv : List ω → σ → Prop) {s : σ} (hstart : inv [] s) {ops : List ω}
    (hallowed : EachStep step allowed ops s)
    (hstep : ∀ done op, done ++ [op] <+: ops → inv done (runAll step done s) →
      allowed op (runAll step done s) → inv (done ++ [op]) (step op (runAll step done s))) :
    inv ops (runAll step ops s) := by
  have hprefix : ∀ done, done <+: ops → inv done (runAll step done s) := by
    intro done
    induction done using List.reverseRecOn with
    | nil => exact fun _ => hstart
    | append_singleton done op ih =>
      intro hdone
      obtain ⟨rest, hrest⟩ := hdone
      have hbefore := ih ((List.prefix_append done [op]).trans ⟨rest, hrest⟩)
      rw [← hrest, EachStep.append, EachStep.append] at hallowed
      rw [runAll_snoc]
      exact hstep done op ⟨rest, hrest⟩ hbefore hallowed.1.2.1
  exact hprefix ops List.prefix_rfl

/-- The rule for operations that may be made in any state. -/
theorem runAll_invariant (inv : List ω → σ → Prop) {s : σ} (hstart : inv [] s) (ops : List ω)
    (hstep : ∀ done op, inv done (runAll step done s) →
      inv (done ++ [op]) (step op (runAll step done s))) : inv ops (runAll step ops s) := by
  have hall : EachStep step (fun _ _ => True) ops s := EachStep.of_forall fun _ _ _ => trivial
  exact runAll_keeps inv hstart hall fun done op _ hbefore _ => hstep done op hbefore

end Lib
end BumbelBee
