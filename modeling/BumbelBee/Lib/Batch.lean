import Mathlib.Tactic.Common

/-!
# Batching

A batch gathers items, to be handed on together at a flush. A flush of an empty batch is no
flush, so each flush that counts is paid for by an item it took along: `Paid`.
-/

namespace BumbelBee
namespace Lib

structure Batch where
  /-- The items added so far. -/
  added : Nat
  pending : Nat
  flushes : Nat
deriving DecidableEq, Repr

namespace Batch

def empty : Batch := ⟨0, 0, 0⟩

def add (b : Batch) : Batch := { b with added := b.added + 1, pending := b.pending + 1 }

def flush (b : Batch) : Batch :=
  if b.pending = 0 then b else { b with pending := 0, flushes := b.flushes + 1 }

/-- There is an item for every flush, and one for every item that is waiting. -/
def Paid (b : Batch) : Prop := b.flushes + b.pending ≤ b.added

theorem Paid.empty : Paid Batch.empty := Nat.le_refl 0

theorem Paid.add {b : Batch} (h : b.Paid) : b.add.Paid := Nat.succ_le_succ h

theorem Paid.flush {b : Batch} (h : b.Paid) : b.flush.Paid := by
  simp only [Paid, Batch.flush] at h ⊢
  split
  · exact h
  · show b.flushes + 1 + 0 ≤ b.added
    omega

@[simp] theorem flush_added (b : Batch) : b.flush.added = b.added := by
  unfold flush
  split <;> rfl

@[simp] theorem flush_pending (b : Batch) : b.flush.pending = 0 := by
  unfold flush
  split
  · assumption
  · rfl

theorem flush_flushes (b : Batch) :
    b.flush.flushes = if b.pending = 0 then b.flushes else b.flushes + 1 := by
  unfold flush
  split <;> rfl

end Batch
end Lib
end BumbelBee
