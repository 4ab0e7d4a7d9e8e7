import BumbelBee.Lib.Bytes

/-!
# Byte buffers of a fixed capacity

A `Buffer cap` is memory the caller owns `cap` bytes of. `copyInto` is a `memcpy` into it; a
copy that would touch an offset at or past the capacity has no defined result in C, and is
an `Overrun` here.

`blocks` cuts a byte string into zero-padded blocks and `copyBlocks` copies such blocks
back chunk by chunk: `copyBlocks_blocks` is the round trip.
-/

namespace BumbelBee
namespace Lib

/-- An access outside its array: where it started, how long it was, what there is room for. -/
structure Overrun where
  offset : Nat
  length : Nat
  cap : Nat
deriving DecidableEq, Repr

structure Buffer (cap : Nat) where
  mem : Nat → UInt8

variable {cap : Nat}

/-- The first `n` bytes. -/
def Buffer.contents (b : Buffer cap) (n : Nat) : List UInt8 := (List.range n).map b.mem

/-- The `n` bytes from offset `off` on. -/
def Buffer.slice (b : Buffer cap) (off n : Nat) : List UInt8 :=
  (List.range n).map fun i => b.mem (off + i)

/-- A slice of a buffer is a slice of its contents. -/
theorem Buffer.slice_eq (b : Buffer cap) {off n size : Nat} (h : off + n ≤ size) :
    b.slice off n = ((b.contents size).drop off).take n := by
  refine List.ext_getElem (by simp [slice, contents]; omega) fun i hi _ => ?_
  simp [slice, contents]

/-- `memcpy(dst + off, src, length)`. Copying nothing touches nothing. -/
def Buffer.copyInto (b : Buffer cap) (off : Nat) (src : List UInt8) : Except Overrun (Buffer cap) :=
  if src = [] ∨ off + src.length ≤ cap then
    .ok ⟨fun i =>
      if off ≤ i ∧ i < off + src.length then src.getD (i - off) 0 else b.mem i⟩
  else .error ⟨off, src.length, cap⟩

theorem Buffer.copyInto_of_le {b : Buffer cap} {off : Nat} {src : List UInt8}
    (h : off + src.length ≤ cap) : ∃ b', b.copyInto off src = .ok b' ∧
      b'.contents (off + src.length) = b.contents off ++ src := by
  refine ⟨_, if_pos (Or.inr h), ?_⟩
  refine List.ext_getElem (by simp [contents]) fun i hi _ => ?_
  simp only [contents, List.getElem_map, List.getElem_range, List.getElem_append,
    List.length_map, List.length_range]
  have hlt : i < off + src.length := by simpa [contents] using hi
  by_cases hoff : i < off
  · rw [dif_pos hoff, if_neg (by omega)]
  · rw [dif_neg hoff, if_pos ⟨by omega, hlt⟩, List.getD_eq_getElem?_getD,
      List.getElem?_eq_getElem (by omega), Option.getD_some]

theorem Buffer.copyInto_overrun {b : Buffer cap} {off : Nat} {src : List UInt8}
    (hne : src ≠ []) (h : cap < off + src.length) :
    b.copyInto off src = .error ⟨off, src.length, cap⟩ :=
  if_neg (by rintro (h' | h') <;> [exact hne h'; omega])

/-- A continuation that never leaves a buffer adds no overrun of its own. -/
theorem isOk_bind {ε α β : Type} {x : Except ε α} {f : α → Except ε β}
    (hf : ∀ a, (f a).isOk = true) : (x >>= f).isOk = x.isOk := by
  cases x with
  | error e => rfl
  | ok a => exact hf a

/-- `count` blocks of `n` bytes holding the string, the last one padded with zeros. -/
def blocks (n count : Nat) (src : List UInt8) : List (Block n) :=
  (List.range count).map fun i => Block.pad n ((src.drop (i * n)).take n)

@[simp] theorem length_blocks (n count : Nat) (src : List UInt8) :
    (blocks n count src).length = count := by simp [blocks]

/-- The chunk the `i`-th block carries of a string of `size` bytes. -/
def chunkOf (n size i : Nat) : Nat := min (size - i * n) n

/-- Copying the blocks back one after the other, each cut to its chunk. -/
def copyBlocks (n size : Nat) : Nat → List (Block n) → Buffer cap → Except Overrun (Buffer cap)
  | _, [], b => .ok b
  | i, s :: ss, b => do
    let b ← b.copyInto (i * n) (s.bytes.take (chunkOf n size i))
    copyBlocks n size (i + 1) ss b

theorem length_take_chunk {n size i : Nat} (s : Block n) :
    (s.bytes.take (chunkOf n size i)).length = chunkOf n size i := by
  simp [chunkOf]

/-- Copying never leaves a buffer that has room for the whole string, and fills in the
    bytes the blocks carry. The chunks start inside the string (`hin`): a block past its end
    would have nothing to carry. -/
theorem copyBlocks_ok {n size : Nat} : ∀ (ss : List (Block n)) (i : Nat) (b : Buffer cap),
    size ≤ cap → i * n ≤ size → (∀ j < ss.length, (i + j) * n ≤ size) →
    ∃ b', copyBlocks n size i ss b = .ok b' ∧
      b'.contents (min size ((i + ss.length) * n)) =
        b.contents (i * n) ++ (ss.flatMap Block.bytes).take (size - i * n)
  | [], i, b, _, hi, _ => ⟨b, rfl, by simp [Nat.min_eq_right hi]⟩
  | s :: ss, i, b, hcap, hi, hin => by
    -- the first block, cut at the end of the text
    have hlen : (s.bytes.take (chunkOf n size i)).length = chunkOf n size i :=
      length_take_chunk s
    have hend : i * n + chunkOf n size i = min size ((i + 1) * n) := by
      simp only [chunkOf, Nat.add_mul, Nat.one_mul]; omega
    have hroom : i * n + (s.bytes.take (chunkOf n size i)).length ≤ cap := by
      rw [hlen, hend]; omega
    obtain ⟨b₁, hb₁, hm₁⟩ := Buffer.copyInto_of_le (b := b) hroom
    rw [hlen, hend] at hm₁
    simp only [copyBlocks, hb₁, bind, Except.bind]
    by_cases hlast : (i + 1) * n ≤ size
    · -- a full block: go on at the next offset
      have hin' : ∀ j < ss.length, (i + 1 + j) * n ≤ size := fun j hj => by
        have := hin (j + 1) (by simpa using hj)
        rwa [show i + 1 + j = i + (j + 1) by omega]
      obtain ⟨b', hb', hm'⟩ := copyBlocks_ok ss (i + 1) b₁ hcap hlast hin'
      have hn : chunkOf n size i = n := by
        simp only [chunkOf, Nat.add_mul, Nat.one_mul] at *; omega
      have hs : s.bytes.take n = s.bytes.take (size - i * n) := by
        rw [List.take_of_length_le (by simp), List.take_of_length_le]
        simp only [Block.length_bytes, Nat.add_mul, Nat.one_mul] at *; omega
      rw [Nat.min_eq_right hlast, hn, hs] at hm₁
      refine ⟨b', hb', ?_⟩
      rw [List.length_cons, show i + (ss.length + 1) = i + 1 + ss.length by omega, hm', hm₁,
        List.flatMap_cons, List.take_append, Block.length_bytes, List.append_assoc,
        show size - i * n - n = size - (i + 1) * n by simp only [Nat.add_mul]; omega]
    · -- the last block: none can stand behind it
      have hnil : ss = [] := by
        cases ss with
        | nil => rfl
        | cons _ _ => exact absurd (hin 1 (by simp)) hlast
      subst hnil
      have hn : chunkOf n size i = size - i * n := by
        simp only [chunkOf, Nat.add_mul, Nat.one_mul] at *; omega
      rw [hn] at hm₁
      exact ⟨b₁, rfl, by simpa using hm₁⟩

/-- **When copying leaves the buffer**: when the part of the string the blocks carry does not
    fit, whatever they hold. -/
theorem copyBlocks_isOk {n size : Nat} : ∀ (ss : List (Block n)) (i : Nat) (b : Buffer cap),
    i * n ≤ cap → i * n ≤ size → (∀ j < ss.length, (i + j) * n ≤ size) →
    ((copyBlocks n size i ss b).isOk = true ↔ min size ((i + ss.length) * n) ≤ cap)
  | [], i, b, hcap, hi, _ => by
    have hfit : min size (i * n) ≤ cap := by omega
    simpa [copyBlocks, Except.isOk, Except.toBool] using hfit
  | s :: ss, i, b, hcap, hi, hin => by
    have hlen : (s.bytes.take (chunkOf n size i)).length = chunkOf n size i :=
      length_take_chunk s
    have hend : i * n + chunkOf n size i = min size ((i + 1) * n) := by
      simp only [chunkOf, Nat.add_mul, Nat.one_mul]; omega
    have hmono : (i + 1) * n ≤ (i + (s :: ss).length) * n :=
      Nat.mul_le_mul_right n (by simp)
    by_cases hroom : i * n + chunkOf n size i ≤ cap
    · obtain ⟨b₁, hb₁, -⟩ := Buffer.copyInto_of_le (b := b)
        (show i * n + (s.bytes.take (chunkOf n size i)).length ≤ cap by rw [hlen]; exact hroom)
      simp only [copyBlocks, hb₁, bind, Except.bind]
      by_cases hlast : (i + 1) * n ≤ size
      · have hin' : ∀ j < ss.length, (i + 1 + j) * n ≤ size := fun j hj => by
          have := hin (j + 1) (by simpa using hj)
          rwa [show i + 1 + j = i + (j + 1) by omega]
        rw [copyBlocks_isOk ss (i + 1) b₁ (by omega) hlast hin', List.length_cons,
          show i + (ss.length + 1) = i + 1 + ss.length by omega]
      · have hnil : ss = [] := by
          cases ss with
          | nil => rfl
          | cons _ _ => exact absurd (hin 1 (by simp)) hlast
        subst hnil
        simp only [copyBlocks, Except.isOk, Except.toBool, List.length_singleton, true_iff]
        omega
    · have hover : (s.bytes.take (chunkOf n size i)) ≠ [] := fun h0 => by
        rw [h0, List.length_nil] at hlen
        omega
      rw [copyBlocks, Buffer.copyInto_overrun hover (by rw [hlen]; omega)]
      simp only [bind, Except.bind, Except.isOk, Except.toBool, Bool.false_eq_true, false_iff]
      omega

/-- The blocks, joined and cut to the string's length, are the string as far as they go. -/
theorem flatMap_blocks (n : Nat) (src : List UInt8) : ∀ count : Nat,
    ((blocks n count src).flatMap Block.bytes).take src.length = src.take (count * n)
  | 0 => by simp [blocks]
  | count + 1 => by
    have hlen : ((blocks n count src).flatMap Block.bytes).length = count * n := by
      simp [blocks, List.length_flatMap, Function.comp_def, Nat.mul_comm]
    have hsucc : blocks n (count + 1) src =
        blocks n count src ++ [Block.pad n ((src.drop (count * n)).take n)] := by
      simp [blocks, List.range_succ]
    have hpad : (Block.pad n ((src.drop (count * n)).take n)).bytes.take
        (src.length - count * n) = (src.drop (count * n)).take n := by
      by_cases hfull : n ≤ src.length - count * n
      · have hmost : ((src.drop (count * n)).take n).length ≤ src.length - count * n := by
          rw [List.length_take, List.length_drop]
          omega
        rw [Block.pad_of_length (by simp; omega), List.take_of_length_le hmost]
      · rw [List.take_of_length_le (l := src.drop _) (by simp; omega), Block.take_pad (by simp)
          (by omega), List.take_of_length_le (by simp)]
    rw [hsucc, List.flatMap_append, List.take_append, flatMap_blocks n src count, hlen,
      List.flatMap_singleton, hpad, Nat.add_mul, Nat.one_mul, List.take_add]

/-- **The round trip**: a string cut into blocks and copied back block by block is the
    string, in any buffer with room for it. -/
theorem copyBlocks_blocks {n count : Nat} {src : List UInt8} {b : Buffer cap}
    (hcap : src.length ≤ cap) (hfit : src.length ≤ count * n)
    (hin : ∀ j < count, j * n ≤ src.length) :
    ∃ b', copyBlocks n src.length 0 (blocks n count src) b = .ok b' ∧
      b'.contents src.length = src := by
  obtain ⟨b', hb', hm'⟩ := copyBlocks_ok (blocks n count src) 0 b hcap (by simp)
    (by simpa using hin)
  refine ⟨b', hb', ?_⟩
  simpa [Buffer.contents, Nat.min_eq_left hfit, flatMap_blocks, List.take_of_length_le hfit]
    using hm'

end Lib
end BumbelBee
