import Mathlib.Logic.Function.Basic
import Mathlib.Data.Finset.Card
import Mathlib.Data.Fintype.Basic

/-!
# Append-only allocation

Two bookkeeping invariants a table of slots can keep against one counter each.

* `Packed lo mark ext` — the extents the slots hold lie in `[lo, mark)` and no two overlap.
  A free slot may be given the extent that starts at the mark (`Packed.alloc`).
* `Issued next id` — the identifiers the slots hold are below `next` and distinct. A free
  slot may be given `next` itself (`Issued.issue`).

Both survive giving a slot up (`release`), and both say nothing about how the table or the
counter is stored.
-/

namespace BumbelBee
namespace Lib

/-- Cells `[start, start + len)`. -/
structure Extent where
  start : Nat
  len : Nat
deriving DecidableEq

def Extent.stop (e : Extent) : Nat := e.start + e.len

def Extent.Disjoint (e f : Extent) : Prop := e.stop ≤ f.start ∨ f.stop ≤ e.start

instance (e f : Extent) : Decidable (e.Disjoint f) := inferInstanceAs (Decidable (_ ∨ _))

variable {ι : Type} [DecidableEq ι]

structure Packed (lo mark : Nat) (ext : ι → Option Extent) : Prop where
  within : ∀ i e, ext i = some e → lo ≤ e.start ∧ e.stop ≤ mark
  apart : ∀ i j e f, i ≠ j → ext i = some e → ext j = some f → e.Disjoint f

/-- Giving a free slot the extent at the mark moves the mark past it. -/
theorem Packed.alloc {lo mark : Nat} {ext : ι → Option Extent} (h : Packed lo mark ext)
    (hlo : lo ≤ mark) (k : ι) (n : Nat) :
    Packed lo (mark + n) (Function.update ext k (some ⟨mark, n⟩)) := by
  have hold : ∀ i e, i ≠ k → Function.update ext k (some ⟨mark, n⟩) i = some e →
      ext i = some e := fun i e hi he => by rwa [Function.update_of_ne hi] at he
  have hnew : ∀ e, Function.update ext k (some ⟨mark, n⟩) k = some e → e = ⟨mark, n⟩ :=
    fun e he => by rw [Function.update_self, Option.some.injEq] at he; exact he.symm
  constructor
  · intro i e he
    by_cases hi : i = k
    · subst hi
      rw [hnew e he]
      exact ⟨hlo, Nat.le_refl _⟩
    · have := h.within i e (hold i e hi he)
      omega
  · intro i j e f hij he hf
    by_cases hi : i = k
    · subst hi
      have hj := h.within j f (hold j f (Ne.symm hij) hf)
      rw [hnew e he]
      exact Or.inr hj.2
    · by_cases hj : j = k
      · subst hj
        have hi' := h.within i e (hold i e hi he)
        rw [hnew f hf]
        exact Or.inl hi'.2
      · exact h.apart i j e f hij (hold i e hi he) (hold j f hj hf)

omit [DecidableEq ι] in
/-- Fewer slots holding extents, or the same ones elsewhere in the table's record, is
    still packed. -/
theorem Packed.mono {lo mark : Nat} {ext ext' : ι → Option Extent} (h : Packed lo mark ext)
    (hsub : ∀ i e, ext' i = some e → ext i = some e) : Packed lo mark ext' :=
  ⟨fun i e he => h.within i e (hsub i e he),
   fun i j e f hij he hf => h.apart i j e f hij (hsub i e he) (hsub j f hf)⟩

structure Issued (next : Nat) (id : ι → Option Nat) : Prop where
  below : ∀ i n, id i = some n → n < next
  distinct : ∀ i j n, id i = some n → id j = some n → i = j

/-- Giving a slot the next identifier moves the counter past it. -/
theorem Issued.issue {next : Nat} {id : ι → Option Nat} (h : Issued next id) (k : ι) :
    Issued (next + 1) (Function.update id k (some next)) := by
  have hold : ∀ i n, i ≠ k → Function.update id k (some next) i = some n → n < next ∧ id i = some n :=
    fun i n hi hn => by
      rw [Function.update_of_ne hi] at hn
      exact ⟨h.below i n hn, hn⟩
  have hnew : ∀ n, Function.update id k (some next) k = some n → n = next :=
    fun n hn => by rw [Function.update_self, Option.some.injEq] at hn; exact hn.symm
  constructor
  · intro i n hn
    by_cases hi : i = k
    · subst hi; rw [hnew n hn]; omega
    · have := (hold i n hi hn).1
      omega
  · intro i j n hin hjn
    by_cases hi : i = k <;> by_cases hj : j = k
    · exact hi.trans hj.symm
    · subst hi
      have := (hold j n hj hjn).1
      have := hnew n hin
      omega
    · subst hj
      have := (hold i n hi hin).1
      have := hnew n hjn
      omega
    · exact h.distinct i j n (hold i n hi hin).2 (hold j n hj hjn).2

omit [DecidableEq ι] in
theorem Issued.mono {next : Nat} {id id' : ι → Option Nat} (h : Issued next id)
    (hsub : ∀ i n, id' i = some n → id i = some n) : Issued next id' :=
  ⟨fun i n hn => h.below i n (hsub i n hn),
   fun i j n hi hj => h.distinct i j n (hsub i n hi) (hsub j n hj)⟩

/-- Slots still free. Taking one leaves exactly one fewer. -/
theorem card_free_update [Fintype ι] {free free' : ι → Prop} [DecidablePred free]
    [DecidablePred free'] {k : ι} (hk : free k) (hk' : ¬ free' k)
    (hrest : ∀ i, i ≠ k → (free' i ↔ free i)) :
    (Finset.univ.filter free').card + 1 = (Finset.univ.filter free).card := by
  have herase : Finset.univ.filter free' = (Finset.univ.filter free).erase k := by
    ext i
    by_cases hi : i = k
    · subst hi; simp [hk']
    · simp [hi, hrest i hi]
  rw [herase, Finset.card_erase_of_mem (by simp [hk])]
  have : 0 < (Finset.univ.filter free).card := Finset.card_pos.mpr ⟨k, by simp [hk]⟩
  omega

end Lib
end BumbelBee
