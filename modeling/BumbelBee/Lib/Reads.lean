import Mathlib.Data.List.Basic

/-!
# Computations that note what they read

A value together with the places that were looked at to find it, in order. Whether all of
them lie within some bound is settled piece by piece: a computation built by `bind` reads
what its parts read.
-/

namespace BumbelBee
namespace Lib

/-- A value and the places read for it. -/
structure Reads (ι α : Type) where
  value : α
  reads : List ι

namespace Reads
variable {ι α β : Type} {P : ι → Prop} {x : Reads ι α} {f : α → Reads ι β}

instance : Monad (Reads ι) where
  pure a := ⟨a, []⟩
  bind x f := ⟨(f x.value).value, x.reads ++ (f x.value).reads⟩

@[simp] theorem value_pure (a : α) : (pure a : Reads ι α).value = a := rfl

@[simp] theorem value_bind (x : Reads ι α) (f : α → Reads ι β) :
    (x >>= f).value = (f x.value).value := rfl

@[simp] theorem reads_bind (x : Reads ι α) (f : α → Reads ι β) :
    (x >>= f).reads = x.reads ++ (f x.value).reads := rfl

@[simp] theorem value_ite {c : Prop} [Decidable c] (x y : Reads ι α) :
    (if c then x else y).value = if c then x.value else y.value := apply_ite ..

/-- Everything read lies within `P`. -/
def Within (P : ι → Prop) (x : Reads ι α) : Prop := ∀ i ∈ x.reads, P i

theorem within_pure (a : α) : Within P (pure a) := fun _ h => absurd h List.not_mem_nil

/-- **A sequence reads what its parts read.** -/
theorem within_bind : Within P (x >>= f) ↔ Within P x ∧ Within P (f x.value) :=
  List.forall_mem_append

theorem within_ite {c : Prop} [Decidable c] {x y : Reads ι α} (hx : c → Within P x)
    (hy : ¬ c → Within P y) : Within P (if c then x else y) := by
  split
  · exact hx ‹_›
  · exact hy ‹_›

/-- A loop stays within when each of its rounds does. -/
theorem within_foldlM {γ : Type} {g : α → γ → Reads ι α} {cs : List γ}
    (h : ∀ c ∈ cs, ∀ a, Within P (g a c)) (a : α) : Within P (cs.foldlM g a) := by
  induction cs generalizing a with
  | nil => exact within_pure a
  | cons c cs ih =>
    rw [List.foldlM_cons]
    exact within_bind.mpr ⟨h c List.mem_cons_self a,
      ih (fun c' hc' => h c' (List.mem_cons_of_mem c hc')) _⟩

theorem value_foldlM {γ : Type} (g : α → γ → Reads ι α) (cs : List γ) (a : α) :
    (cs.foldlM g a).value = cs.foldl (fun b c => (g b c).value) a := by
  induction cs generalizing a with
  | nil => rfl
  | cons c cs ih => rw [List.foldlM_cons, value_bind, ih, List.foldl_cons]

end Reads

end Lib
end BumbelBee
