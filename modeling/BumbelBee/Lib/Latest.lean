import Mathlib.Data.List.Basic
import Mathlib.Data.List.Induction
import Mathlib.Data.List.Nodup

/-!
# The last entry under a key

A table that is written slot by slot holds, in each slot, what was last written there. The
log of the writes says all of it: `latest` reads a slot off the log. The values of a log are
all shown exactly once when, and only when, no slot was written twice.
-/

namespace BumbelBee
namespace Lib

section
variable {κ α : Type} [DecidableEq κ] {k : κ} {a : α}

/-- The value last logged under a key. -/
def latest (k : κ) (log : List (κ × α)) : Option α :=
  ((log.filter fun e => e.1 = k).getLast?).map Prod.snd

@[simp] theorem latest_nil : latest k ([] : List (κ × α)) = none := rfl

/-- **One more entry.** -/
theorem latest_concat (log : List (κ × α)) (e : κ × α) :
    latest k (log ++ [e]) = if e.1 = k then some e.2 else latest k log := by
  unfold latest
  rw [List.filter_append]
  by_cases h : e.1 = k
  · simp [h]
  · simp [h]

/-- The log without some of the keys. -/
theorem latest_filter (p : κ → Bool) (log : List (κ × α)) :
    latest k (log.filter fun e => p e.1) = if p k = true then latest k log else none := by
  unfold latest
  rw [List.filter_filter]
  split
  · rename_i hp
    congr 3
    funext e
    by_cases he : e.1 = k
    · simp [he, hp]
    · simp [he]
  · rename_i hp
    have hnone : (log.filter fun e => decide (e.1 = k) && p e.1) = [] := by
      refine List.filter_eq_nil_iff.mpr fun e _ he => ?_
      rw [Bool.and_eq_true, decide_eq_true_eq] at he
      exact hp (he.1 ▸ he.2)
    rw [hnone]
    rfl

theorem latest_mem {log : List (κ × α)} (h : latest k log = some a) : (k, a) ∈ log := by
  obtain ⟨e, he, rfl⟩ := Option.map_eq_some_iff.mp h
  obtain ⟨hmem, hkey⟩ := List.mem_filter.mp (List.mem_of_getLast? he)
  rw [← of_decide_eq_true hkey]
  exact hmem

/-- Of a key that is logged once, the entry is the last. -/
theorem latest_of_nodup : ∀ {log : List (κ × α)}, (log.map Prod.fst).Nodup → (k, a) ∈ log →
    latest k log = some a := by
  intro log
  induction log using List.reverseRecOn with
  | nil => exact fun _ h => absurd h List.not_mem_nil
  | append_singleton log e ih =>
    intro hnodup hmem
    rw [List.map_append, List.map_singleton, List.nodup_append] at hnodup
    obtain ⟨hold, -, hapart⟩ := hnodup
    rw [latest_concat]
    rcases List.mem_append.mp hmem with hmem | hmem
    · rw [if_neg fun hkey => hapart k (List.mem_map_of_mem hmem) e.1 List.mem_cons_self hkey.symm]
      exact ih hold hmem
    · rw [← List.mem_singleton.mp hmem, if_pos rfl]

end

/-! ## A numbered table

With slots that are numbered and a value that means empty, the table can be shown from the front.
What is asked is when such a list shows each logged value once.
-/

variable {α : Type}

/-- The first `n` slots of a table that held `d` everywhere. -/
def shown (d : α) (n : Nat) (log : List (Nat × α)) : List α :=
  (List.range n).map fun k => (latest k log).getD d

theorem mem_shown {d a : α} {n : Nat} {log : List (Nat × α)} (ha : a ≠ d) (h : a ∈ shown d n log) :
    ∃ k < n, latest k log = some a := by
  obtain ⟨k, hk, heq⟩ := List.mem_map.mp h
  refine ⟨k, List.mem_range.mp hk, ?_⟩
  cases hlatest : latest k log with
  | none =>
    rw [hlatest] at heq
    exact absurd heq.symm ha
  | some b =>
    rw [hlatest] at heq
    exact congrArg some heq

/-- **Every value is shown exactly once** if and only if no slot was written twice, or lies
    behind those that are shown. The values are distinct, and none is the empty slot's. -/
theorem count_shown_iff [DecidableEq α] {d : α} {n : Nat} {log : List (Nat × α)} (hvalues : (log.map Prod.snd).Nodup)
    (hd : ∀ e ∈ log, e.2 ≠ d) :
    (∀ e ∈ log, (shown d n log).count e.2 = 1) ↔
      (log.map Prod.fst).Nodup ∧ ∀ e ∈ log, e.1 < n := by
  -- an entry is known by its value
  have hinj : ∀ e ∈ log, ∀ e' ∈ log, e.2 = e'.2 → e = e' := fun e he e' he' =>
    List.inj_on_of_nodup_map hvalues he he'
  constructor
  · intro hcount
    have hslot : ∀ e ∈ log, e.1 < n ∧ latest e.1 log = some e.2 := by
      intro e he
      have hmem : e.2 ∈ shown d n log := List.count_pos_iff.mp (by rw [hcount e he]; exact Nat.one_pos)
      obtain ⟨k, hk, hlatest⟩ := mem_shown (hd e he) hmem
      have hsame : (k, e.2) = e := hinj _ (latest_mem hlatest) e he rfl
      rw [← hsame]
      exact ⟨hk, hlatest⟩
    refine ⟨List.Nodup.map_on ?_ hvalues.of_map, fun e he => (hslot e he).1⟩
    intro e he e' he' hkey
    have hlatest := (hslot e he).2
    rw [hkey, (hslot e' he').2, Option.some.injEq] at hlatest
    exact (hinj e' he' e he hlatest).symm
  · rintro ⟨hkeys, hbound⟩ e he
    have hlatest : latest e.1 log = some e.2 := latest_of_nodup hkeys he
    have honly : ∀ k ∈ List.range n, ((latest k log).getD d == e.2) = (k == e.1) := by
      intro k _
      rw [Bool.eq_iff_iff, beq_iff_eq, beq_iff_eq]
      refine ⟨fun hk => ?_, fun hk => by rw [hk, hlatest]; rfl⟩
      cases hfound : latest k log with
      | none =>
        rw [hfound] at hk
        exact absurd hk.symm (hd e he)
      | some b =>
        rw [hfound] at hk
        exact congrArg Prod.fst (hinj _ (latest_mem hfound) e he hk)
    rw [List.count, shown, List.countP_map]
    rw [List.countP_congr (q := fun k => k == e.1) fun k hk => by
      rw [Function.comp_apply, honly k hk]]
    exact List.count_eq_one_of_mem List.nodup_range (List.mem_range.mpr (hbound e he))

end Lib
end BumbelBee
