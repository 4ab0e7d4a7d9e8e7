import Mathlib.Data.List.Infix

/-!
# Reading in chunks

A reader asks for a string bit by bit; each read hands over the next elements, fewer only at
the end, or fails and hands over none. `Delivers` is what such a series of reads gives.

Put together, the reads that did not fail are the string from where the first one started:
a part of it at any time (`Delivers.sofar`), all of it once a read that asked for something
came back empty (`Delivers.whole`), and that is bound to happen (`Delivers.ends`).

`UpTo` is the same for a reader that is looked at between its reads.
-/

namespace BumbelBee
namespace Lib

variable {α : Type _}

/-- What reads of the given sizes give of `data` from `pos` on. -/
inductive Delivers (data : List α) : Nat → List Nat → List (Option (List α)) → Prop
  | done (pos : Nat) : Delivers data pos [] []
  | failed {pos n : Nat} {ns : List Nat} {outs : List (Option (List α))}
      (rest : Delivers data pos ns outs) : Delivers data pos (n :: ns) (none :: outs)
  | read {pos n : Nat} {ns : List Nat} {outs : List (Option (List α))}
      (rest : Delivers data (pos + min n (data.length - pos)) ns outs) :
      Delivers data pos (n :: ns) (some ((data.drop pos).take n) :: outs)

/-- What was read, put together. -/
def gathered (outs : List (Option (List α))) : List α := outs.flatMap fun out => out.getD []

@[simp] theorem gathered_nil : gathered ([] : List (Option (List α))) = [] := rfl
@[simp] theorem gathered_cons (out : Option (List α)) (outs : List (Option (List α))) :
    gathered (out :: outs) = out.getD [] ++ gathered outs := rfl

variable {data : List α} {pos : Nat} {ns : List Nat} {outs : List (Option (List α))}

/-- The next read goes on where this one stopped. -/
theorem take_append_drop_chunk (data : List α) (pos n : Nat) :
    (data.drop pos).take n ++ data.drop (pos + min n (data.length - pos)) = data.drop pos := by
  have hskip : data.drop (pos + min n (data.length - pos)) = (data.drop pos).drop n := by
    rw [List.drop_drop]
    by_cases hfull : n ≤ data.length - pos
    · rw [Nat.min_eq_left hfull]
    · rw [List.drop_of_length_le (by omega), List.drop_of_length_le (by omega)]
  rw [hskip, List.take_append_drop]

theorem Delivers.sofar (h : Delivers data pos ns outs) : gathered outs <+: data.drop pos := by
  induction h with
  | done pos => exact List.nil_prefix
  | failed _ ih => exact ih
  | @read pos n ns outs _ ih =>
    have hnext := (List.prefix_append_right_inj ((data.drop pos).take n)).mpr ih
    rwa [take_append_drop_chunk] at hnext

/-- **All of it**, once a read of something came back empty. -/
theorem Delivers.whole (h : Delivers data pos ns outs) (hpos : ∀ n ∈ ns, 0 < n)
    (hend : some [] ∈ outs) : gathered outs = data.drop pos := by
  induction h with
  | done pos => exact absurd hend List.not_mem_nil
  | @failed pos n ns outs _ ih =>
    rw [List.mem_cons] at hend
    exact ih (fun m hm => hpos m (List.mem_cons_of_mem n hm)) (hend.resolve_left (by simp))
  | @read pos n ns outs hrest ih =>
    have hn := hpos n List.mem_cons_self
    rw [gathered_cons, Option.getD_some]
    rcases List.mem_cons.mp hend with hnow | hlater
    · -- this read is at the end, and so is every later one
      have hlen := congrArg List.length (Option.some.inj hnow)
      rw [List.length_nil, List.length_take, List.length_drop] at hlen
      have hdone : data.drop pos = [] := List.drop_of_length_le (by omega)
      have hnone := hrest.sofar
      rw [show pos + min n (data.length - pos) = pos by omega, hdone] at hnone
      rw [hdone, List.prefix_nil.mp hnone, List.take_nil, List.append_nil]
    · rw [ih (fun m hm => hpos m (List.mem_cons_of_mem n hm)) hlater, take_append_drop_chunk]

/-- More reads than there are elements left: one came back empty. -/
theorem Delivers.ends (h : Delivers data pos ns outs) (hpos : ∀ n ∈ ns, 0 < n)
    (hmany : data.length - pos < outs.countP Option.isSome) : some [] ∈ outs := by
  induction h with
  | done pos => exact absurd hmany (Nat.not_lt_zero _)
  | @failed pos n ns outs _ ih =>
    rw [List.countP_cons_of_neg (by simp)] at hmany
    exact List.mem_cons_of_mem _ (ih (fun m hm => hpos m (List.mem_cons_of_mem n hm)) hmany)
  | @read pos n ns outs _ ih =>
    have hn := hpos n List.mem_cons_self
    rw [List.countP_cons_of_pos (by simp)] at hmany
    by_cases hleft : data.length ≤ pos
    · rw [List.drop_of_length_le hleft, List.take_nil]
      exact List.mem_cons_self
    · refine List.mem_cons_of_mem _ (ih (fun m hm => hpos m (List.mem_cons_of_mem n hm)) ?_)
      omega

/-! ## Where a reader is

A caller that stops between two reads has part of the string and a position, and the two agree.
-/

/-- What a reader has got of `data`: the front of it, up to its position. -/
structure UpTo (data got : List α) (pos : Nat) : Prop where
  front : got <+: data
  length : got.length = pos

section
variable {got : List α}

theorem UpTo.start (data : List α) : UpTo data [] 0 := ⟨List.nil_prefix, rfl⟩

theorem UpTo.eq_take (h : UpTo data got pos) : got = data.take pos := by
  rw [← h.length]
  exact List.prefix_iff_eq_take.mp h.front

theorem UpTo.pos_le (h : UpTo data got pos) : pos ≤ data.length := by
  rw [← h.length]
  exact h.front.length_le

theorem UpTo.read (h : UpTo data got pos) (n : Nat) :
    UpTo data (got ++ (data.drop pos).take n) (pos + min n (data.length - pos)) := by
  constructor
  · rw [h.eq_take, ← List.take_add]
    exact List.take_prefix _ _
  · rw [List.length_append, h.length, List.length_take, List.length_drop]

/-- A read of something that comes back empty is at the end. -/
theorem UpTo.whole (h : UpTo data got pos) {n : Nat} (hn : 0 < n)
    (hend : (data.drop pos).take n = []) : got = data := by
  have hdone : data.length ≤ pos := by
    have hlen := congrArg List.length hend
    rw [List.length_nil, List.length_take, List.length_drop] at hlen
    omega
  rw [h.eq_take, List.take_of_length_le hdone]

end

end Lib
end BumbelBee
