import Mathlib.Data.List.Forall2

/-!
# Walking down a log

A sequence of calls is checked against a log, call by call. A call that agrees with the next
entry moves on; one that does not, or that finds no entry left, fails the walk and moves
nothing. A failed walk never recovers, though its later calls are compared all the same.

`Walk.accepts_iff` is what such a check decides: the calls and the log match entry by entry,
none missing and none left over.
-/

namespace BumbelBee
namespace Lib

variable {α β : Type}

structure Walk (α : Type) where
  /-- The entries not matched yet. -/
  rest : List α
  failed : Bool
  /-- The entry compared last. -/
  last : Option α

def Walk.start (log : List α) : Walk α := ⟨log, false, none⟩

def Walk.step (agrees : β → α → Bool) (w : Walk α) (c : β) : Walk α :=
  match w.rest with
  | [] => { w with failed := true }
  | e :: rest =>
    if agrees c e then { w with rest, last := some e }
    else { w with failed := true, last := some e }

def Walk.run (agrees : β → α → Bool) (w : Walk α) (cs : List β) : Walk α :=
  cs.foldl (Walk.step agrees) w

/-- The verdict at the end: nothing went wrong, and nothing is left. -/
def Walk.accepts (w : Walk α) : Prop := w.failed = false ∧ w.rest = []

@[simp] theorem Walk.run_nil (agrees : β → α → Bool) (w : Walk α) : w.run agrees [] = w := rfl
@[simp] theorem Walk.run_cons (agrees : β → α → Bool) (w : Walk α) (c : β) (cs : List β) :
    w.run agrees (c :: cs) = (w.step agrees c).run agrees cs := rfl

theorem Walk.step_failed {agrees : β → α → Bool} {w : Walk α} (c : β) (h : w.failed = true) :
    (w.step agrees c).failed = true := by
  unfold Walk.step
  split
  · rfl
  · split
    · exact h
    · rfl

/-- Failure is for good. -/
theorem Walk.run_failed {agrees : β → α → Bool} : ∀ (cs : List β) {w : Walk α},
    w.failed = true → (w.run agrees cs).failed = true
  | [], _, h => h
  | c :: cs, w, h => by
    rw [Walk.run_cons]
    exact Walk.run_failed cs (Walk.step_failed c h)

theorem Walk.run_append (agrees : β → α → Bool) (w : Walk α) (cs cs' : List β) :
    w.run agrees (cs ++ cs') = (w.run agrees cs).run agrees cs' := List.foldl_append

/-- Calls that agree with the entries before it lead to an entry. -/
theorem Walk.run_matched {agrees : β → α → Bool} {rest : List α} : ∀ {cs : List β} {es : List α}
    {w : Walk α}, w.rest = es ++ rest → List.Forall₂ (fun c e => agrees c e = true) cs es →
      (w.run agrees cs).rest = rest
  | [], _, w, hrest, h => by
    cases h
    exact hrest
  | c :: cs, e :: es, w, hrest, h => by
    obtain ⟨hagrees, h⟩ := List.forall₂_cons.mp h
    have hstep : w.step agrees c = { w with rest := es ++ rest, last := some e } := by
      simp only [Walk.step, hrest, List.cons_append, hagrees, if_true]
    rw [Walk.run_cons, hstep]
    exact Walk.run_matched rfl h

/-- A walk never goes back. -/
theorem Walk.rest_suffix {agrees : β → α → Bool} : ∀ (cs : List β) (w : Walk α),
    (w.run agrees cs).rest <:+ w.rest
  | [], _ => List.suffix_rfl
  | c :: cs, w => by
    refine (Walk.rest_suffix cs (w.step agrees c)).trans ?_
    unfold Walk.step
    split
    · exact List.suffix_rfl
    · rename_i e rest hrest
      rw [hrest]
      split
      · exact List.suffix_cons e rest
      · exact List.suffix_rfl

/-- **Standing before an entry**: the walk is still there when no call has agreed with it. -/
theorem Walk.stands_iff {agrees : β → α → Bool} {e : α} {rest : List α} : ∀ {cs : List β}
    {w : Walk α}, w.rest = e :: rest →
      ((w.run agrees cs).rest = e :: rest ↔ ∀ c ∈ cs, agrees c e = false)
  | [], w, h => by simpa using h
  | c :: cs, w, h => by
    rw [Walk.run_cons, List.forall_mem_cons]
    cases hagrees : agrees c e with
    | true =>
      have hstep : w.step agrees c = { w with rest, last := some e } := by
        simp only [Walk.step, h, hagrees, if_true]
      refine iff_of_false (fun hstands => ?_) (by simp)
      have hlen : ((w.step agrees c).run agrees cs).rest.length ≤ (w.step agrees c).rest.length :=
        (Walk.rest_suffix cs (w.step agrees c)).length_le
      rw [hstands, hstep, List.length_cons] at hlen
      exact Nat.lt_irrefl _ hlen
    | false =>
      have hstep : (w.step agrees c).rest = e :: rest := by
        simp only [Walk.step, h, hagrees, Bool.false_eq_true, if_false]
      rw [Walk.stands_iff hstep]
      exact (and_iff_right rfl).symm

/-- **What the walk decides.** -/
theorem Walk.accepts_iff {agrees : β → α → Bool} : ∀ {cs : List β} {w : Walk α},
    w.failed = false →
      ((w.run agrees cs).accepts ↔ List.Forall₂ (fun c e => agrees c e = true) cs w.rest)
  | [], w, h => by
    rw [Walk.run_nil, Walk.accepts, List.forall₂_nil_left_iff]
    exact and_iff_right h
  | c :: cs, w, h => by
    rw [Walk.run_cons]
    cases hr : w.rest with
    | nil =>
      have hfail : (w.step agrees c).failed = true := by simp [Walk.step, hr]
      refine iff_of_false (fun hacc => ?_) (by simp)
      rw [Walk.accepts, Walk.run_failed cs hfail] at hacc
      exact absurd hacc.1 (by simp)
    | cons e rest =>
      rw [List.forall₂_cons]
      by_cases ha : agrees c e = true
      · have hstep : w.step agrees c = { w with rest, last := some e } := by
          simp [Walk.step, hr, ha]
        rw [hstep, Walk.accepts_iff (by exact h)]
        exact (and_iff_right ha).symm
      · have hfail : (w.step agrees c).failed = true := by simp [Walk.step, hr, ha]
        refine iff_of_false (fun hacc => ?_) fun hb => ha hb.1
        rw [Walk.accepts, Walk.run_failed cs hfail] at hacc
        exact absurd hacc.1 (by simp)

end Lib
end BumbelBee
