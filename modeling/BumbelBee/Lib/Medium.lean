import Mathlib.Logic.Function.Basic
import Mathlib.Data.List.Basic

/-!
# Write logs over an addressed medium

A medium is a function from addresses to cells. What a device did to it is a log of cell
writes, oldest first; the medium after a power cut is the original image with a prefix of
the log applied. The rules here say what a log leaves alone (`applyWrites_frame`), what a
run of consecutive writes puts where (`applyWrites_span`), and how a log is cut
(`take_span`).
-/

namespace BumbelBee
namespace Lib

variable {α : Type}

/-- The medium after the writes of the log, oldest first. -/
def applyWrites : List (Nat × α) → (Nat → α) → Nat → α
  | [], d => d
  | (a, v) :: ws, d => applyWrites ws (Function.update d a v)

/-- Consecutive cells from address `s` on. -/
def span : Nat → List α → List (Nat × α)
  | _, [] => []
  | s, v :: vs => (s, v) :: span (s + 1) vs

/-- The `n` cells from address `s` on. -/
def readSpan (d : Nat → α) (s n : Nat) : List α := (List.range n).map fun i => d (s + i)

@[simp] theorem applyWrites_nil (d : Nat → α) : applyWrites [] d = d := rfl

theorem applyWrites_append (ws vs : List (Nat × α)) (d : Nat → α) :
    applyWrites (ws ++ vs) d = applyWrites vs (applyWrites ws d) := by
  induction ws generalizing d with
  | nil => rfl
  | cons w ws ih => exact ih _

/-- A cell no write addresses keeps its value. -/
theorem applyWrites_frame {ws : List (Nat × α)} {x : Nat} (h : ∀ w ∈ ws, w.1 ≠ x)
    (d : Nat → α) : applyWrites ws d x = d x := by
  induction ws generalizing d with
  | nil => rfl
  | cons w ws ih =>
    have hw : x ≠ w.1 := fun he => h w List.mem_cons_self he.symm
    rw [applyWrites, ih (fun v hv => h v (List.mem_cons_of_mem _ hv)),
      Function.update_of_ne hw]

/-- A cell some write addresses holds what one of them wrote. -/
theorem applyWrites_hit {ws : List (Nat × α)} {x : Nat} (h : ∃ w ∈ ws, w.1 = x) (d : Nat → α) :
    ∃ w ∈ ws, w.1 = x ∧ applyWrites ws d x = w.2 := by
  induction ws generalizing d with
  | nil => obtain ⟨w, hw, -⟩ := h; exact absurd hw (by simp)
  | cons v ws ih =>
    by_cases hlater : ∃ w ∈ ws, w.1 = x
    · obtain ⟨w, hw, hx, hval⟩ := ih hlater (Function.update d v.1 v.2)
      exact ⟨w, List.mem_cons_of_mem _ hw, hx, hval⟩
    · -- the head was the last write to the cell
      obtain ⟨w, hw, hx⟩ := h
      have hv : w = v := (List.mem_cons.mp hw).resolve_right fun hw => hlater ⟨w, hw, hx⟩
      subst hv
      refine ⟨w, List.mem_cons_self, hx, ?_⟩
      rw [applyWrites, applyWrites_frame fun u hu hux => hlater ⟨u, hu, hux⟩, ← hx,
        Function.update_self]

@[simp] theorem length_span : ∀ (s : Nat) (vs : List α), (span s vs).length = vs.length
  | _, [] => rfl
  | s, _ :: vs => by simp [span, length_span (s + 1) vs]

theorem span_append : ∀ (s : Nat) (us vs : List α),
    span s (us ++ vs) = span s us ++ span (s + us.length) vs
  | _, [], _ => rfl
  | s, u :: us, vs => by
    rw [List.cons_append, span, span, span_append (s + 1) us vs, List.length_cons,
      Nat.add_right_comm]
    rfl

theorem mem_span : ∀ {s : Nat} {vs : List α} {w : Nat × α}, w ∈ span s vs →
    s ≤ w.1 ∧ w.1 < s + vs.length
  | _, [], _, h => absurd h (by simp [span])
  | s, v :: vs, w, h => by
    simp only [span, List.mem_cons] at h
    rcases h with rfl | h
    · simp
    · have := mem_span h
      simp only [List.length_cons]
      omega

theorem take_span : ∀ (k s : Nat) (vs : List α), (span s vs).take k = span s (vs.take k)
  | 0, _, _ => rfl
  | _ + 1, _, [] => rfl
  | k + 1, s, v :: vs => by simp [span, take_span k (s + 1) vs]

/-- Outside the written run nothing changes. -/
theorem applyWrites_span_out {s x : Nat} {vs : List α} (h : x < s ∨ s + vs.length ≤ x)
    (d : Nat → α) : applyWrites (span s vs) d x = d x := by
  refine applyWrites_frame (fun w hw => ?_) d
  have := mem_span hw
  omega

/-- Inside it each cell holds the value written there. -/
theorem applyWrites_span {s i : Nat} {vs : List α} (hi : i < vs.length) (d : Nat → α) :
    applyWrites (span s vs) d (s + i) = vs[i] := by
  induction vs generalizing s i d with
  | nil => exact absurd hi (by simp)
  | cons v vs ih =>
    rw [span, applyWrites]
    cases i with
    | zero => rw [applyWrites_span_out (Or.inl (by omega))]; simp
    | succ i =>
      have h := ih (s := s + 1) (i := i) (by simpa using hi) (Function.update d s v)
      rw [show s + 1 + i = s + (i + 1) by omega] at h
      simpa using h

@[simp] theorem length_readSpan (d : Nat → α) (s n : Nat) : (readSpan d s n).length = n := by
  simp [readSpan]

theorem readSpan_succ (d : Nat → α) (s n : Nat) :
    readSpan d s (n + 1) = d s :: readSpan d (s + 1) n := by
  simp [readSpan, List.range_succ_eq_map, Function.comp_def, Nat.add_assoc, Nat.add_comm 1]

theorem readSpan_congr {d e : Nat → α} {s n : Nat} (h : ∀ x, s ≤ x → x < s + n → d x = e x) :
    readSpan d s n = readSpan e s n :=
  List.map_congr_left fun i hi => h _ (by omega) (by have := List.mem_range.mp hi; omega)

/-- What was written consecutively is read back consecutively. -/
theorem readSpan_span (d : Nat → α) (s : Nat) (vs : List α) :
    readSpan (applyWrites (span s vs) d) s vs.length = vs := by
  refine List.ext_getElem (by simp) fun i hi hj => ?_
  simp only [readSpan, List.getElem_map, List.getElem_range]
  exact applyWrites_span hj d

end Lib
end BumbelBee
