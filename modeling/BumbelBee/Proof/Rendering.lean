import BumbelBee.Kernel.Nodes
import BumbelBee.Lib.Decimal

/-!
# What a renderer puts in its buffer

Every renderer is one long `append_str`: of a text that can be written down beforehand. What
is stored of it is its front, as much as fits with a terminator; what is counted is all of it.
So a renderer's total is one to go by exactly when the text fits.

The count is the trouble. `append_char` stops storing at the end of the buffer and goes on counting,
so that the total says how long the text would have been, and `read_from_node` takes it for how long
it is. `Rendered.Whole` is that the two are the same.
-/

namespace BumbelBee
namespace Proof

open Lib Kernel

theorem length_decimal_u32 (x : UInt32) : (decimal x.toNat).length ≤ 10 :=
  length_decimal_le (by decide) (Nat.lt_trans x.toNat_lt (by decide))

theorem length_decimal_u64 (x : UInt64) : (decimal x.toNat).length ≤ 20 :=
  length_decimal_le (by decide) (Nat.lt_trans x.toNat_lt (by decide))

section
variable (cap : UInt32) (r : Rendered)

theorem appendStr_append (s t : List UInt8) :
    appendStr cap (appendStr cap r s) t = appendStr cap r (s ++ t) := List.foldl_append.symm

theorem appendChar_eq (c : UInt8) : appendChar cap r c = appendStr cap r [c] := rfl

/-- The digits are those of the number. -/
theorem decimalDigits_eq (n : Nat) (value : UInt64) (h : value.toNat < 10 ^ n) :
    decimalDigits n value = digitChars value.toNat := by
  induction n generalizing value with
  | zero =>
    have hzero : value.toNat = 0 := by omega
    rw [hzero, digitChars_zero, decimalDigits]
  | succ n ih =>
    rw [decimalDigits]
    split
    · rename_i hzero
      rw [hzero]
      simp
    · rename_i hne
      have hdiv : (value / 10).toNat = value.toNat / 10 := UInt64.toNat_div value 10
      have hmod : (value % 10).toNat = value.toNat % 10 := UInt64.toNat_mod value 10
      have hchar : 0x30 + (value % 10).toUInt8 = digitChar (value.toNat % 10) := by
        rw [← UInt8.toNat_inj, digitChar_toNat (Nat.mod_lt _ (by decide)), UInt8.toNat_add,
          UInt64.toNat_toUInt8, hmod]
        have hlt := Nat.mod_lt value.toNat (show 0 < 10 by decide)
        simp only [UInt8.reduceToNat]
        omega
      have hne' : value.toNat ≠ 0 := fun h0 => hne (UInt64.toNat_inj.mp h0)
      rw [ih (value / 10) (by rw [hdiv]; omega), hdiv, hchar, digitChars_of_ne_zero hne']

theorem appendU64_eq (value : UInt64) :
    appendU64 cap r value = appendStr cap r (decimal value.toNat) := by
  unfold appendU64 decimal
  by_cases hzero : value = 0
  · rw [if_pos hzero, if_pos (by rw [hzero]; rfl)]
    rfl
  · have hlt : value.toNat < 10 ^ 32 := Nat.lt_trans value.toNat_lt (by decide)
    have hne : value.toNat ≠ 0 := fun h0 => hzero (UInt64.toNat_inj.mp h0)
    rw [if_neg hzero, if_neg hne, decimalDigits_eq 32 _ hlt]

/-- A loop that appends a line for each entry. -/
theorem foldl_appendStr {α : Type} (line : α → List UInt8) : ∀ (xs : List α) (r : Rendered),
    xs.foldl (fun r x => appendStr cap r (line x)) r = appendStr cap r (xs.flatMap line)
  | [], _ => rfl
  | x :: xs, r => by
    rw [List.foldl_cons, foldl_appendStr line xs, appendStr_append, List.flatMap_cons]

end

/-- A text rendered into an empty buffer. -/
def rendered (cap : UInt32) (text : List UInt8) : Rendered := appendStr cap ⟨[], 0⟩ text

/-- **What is stored and what is counted.** -/
theorem rendered_eq {cap : UInt32} (hcap : 0 < cap.toNat) (text : List UInt8)
    (hlen : text.length < 2 ^ 32 - 1) :
    rendered cap text = ⟨text.take (cap.toNat - 1), UInt32.ofNat text.length⟩ := by
  induction text using List.reverseRecOn with
  | nil => simp [rendered, appendStr]
  | append_singleton text c ih =>
    rw [List.length_append, List.length_singleton] at hlen
    have hpos : (UInt32.ofNat text.length).toNat = text.length :=
      UInt32.toNat_ofNat_of_lt' (by simp only [UInt32.size]; omega)
    have hnext : (UInt32.ofNat text.length + 1).toNat = text.length + 1 := by
      rw [UInt32.toNat_add, hpos]
      simp only [UInt32.reduceToNat]
      omega
    have hstep : rendered cap (text ++ [c]) = appendChar cap (rendered cap text) c :=
      (appendStr_append cap _ text [c]).symm
    rw [hstep, ih (by omega)]
    simp only [appendChar, UInt32.lt_iff_toNat_lt, hnext, Rendered.mk.injEq]
    refine ⟨?_, ?_⟩
    · split
      · -- there is room: all of the text was stored before, and is now
        rw [List.take_of_length_le (by omega), List.take_of_length_le (by simp; omega)]
      · rw [List.take_append_of_le_length (by omega)]
    · rw [List.length_append, List.length_singleton, UInt32.ofNat_add]
      rfl

/-- The total a renderer reports counts no character that was not stored. -/
def Rendered.Whole (r : Rendered) : Prop := r.pos.toNat ≤ r.stored.length

theorem rendered_whole_iff {cap : UInt32} (hcap : 0 < cap.toNat) {text : List UInt8}
    (hlen : text.length < 2 ^ 32 - 1) :
    Rendered.Whole (rendered cap text) ↔ text.length ≤ cap.toNat - 1 := by
  have hpos : (UInt32.ofNat text.length).toNat = text.length :=
    UInt32.toNat_ofNat_of_lt' (by simp only [UInt32.size]; omega)
  rw [Rendered.Whole, rendered_eq hcap text hlen, hpos, List.length_take]
  omega

/-- A slice of the characters stored has nothing of the stack in it. -/
theorem slice_stored {r : Rendered} {stack : Nat → UInt8} {pos n : Nat}
    (h : pos + n ≤ r.stored.length) : r.slice stack pos n = (r.stored.drop pos).take n := by
  refine List.ext_getElem (by simp [Rendered.slice]; omega) fun i hi _ => ?_
  have hin : pos + i < r.stored.length := by
    rw [Rendered.slice, List.length_map, List.length_range] at hi
    omega
  simp only [Rendered.slice, List.getElem_map, List.getElem_range, List.getElem_take,
    List.getElem_drop]
  rw [List.getD_eq_getElem?_getD, List.getElem?_append_left hin, List.getElem?_eq_getElem hin,
    Option.getD_some]

/-! ## Numerals read back -/

/-- The digits of a number, read into a `u32`, as far as they go. -/
theorem parseDigits_append (s rest : List UInt8) (hs : ∀ c ∈ s, 0x30 ≤ c.toNat ∧ c.toNat ≤ 0x39)
    (hrest : ∀ c ∈ rest.head?, ¬ (0x30 ≤ c ∧ c ≤ 0x39)) (n : Nat) :
    parseDigits (UInt32.ofNat n) (s ++ rest) = UInt32.ofNat (readDigits n s) := by
  induction s generalizing n with
  | nil =>
    cases rest with
    | nil => rfl
    | cons c rest => rw [List.nil_append, parseDigits, if_neg (hrest c rfl)]; rfl
  | cons c s ih =>
    obtain ⟨hlow, hhigh⟩ := hs c List.mem_cons_self
    have hdigit : 0x30 ≤ c ∧ c ≤ 0x39 := ⟨hlow, hhigh⟩
    have hsub : (c - 0x30).toUInt32 = UInt32.ofNat (c.toNat - 0x30) := by
      rw [← UInt32.toNat_inj, UInt8.toNat_toUInt32, UInt8.toNat_sub_of_le _ _ hdigit.1,
        UInt32.toNat_ofNat_of_lt' (by simp only [UInt32.size]; omega)]
      rfl
    rw [List.cons_append, parseDigits, if_pos hdigit, hsub,
      show UInt32.ofNat n * 10 + UInt32.ofNat (c.toNat - 0x30) =
        UInt32.ofNat (n * 10 + (c.toNat - 0x30)) by rw [UInt32.ofNat_add, UInt32.ofNat_mul]; rfl,
      ih (fun d hd => hs d (List.mem_cons_of_mem c hd))]
    rfl

/-! ## Reading it -/

theorem readLength_toNat (bytes : UInt64) {total pos : UInt32} (h : pos ≤ total) :
    (readLength bytes total pos).toNat = min bytes.toNat (total.toNat - pos.toNat) := by
  have hremain : (total - pos).toNat = total.toNat - pos.toNat := UInt32.toNat_sub_of_le _ _ h
  have htotal := total.toNat_lt
  simp only [readLength, UInt64.lt_iff_toNat_lt, UInt32.toNat_toUInt64, hremain]
  split
  · rw [UInt64.toNat_toUInt32]
    omega
  · rw [hremain]
    omega

theorem add_readLength_toNat {bytes : UInt64} {total pos : UInt32} (h : pos ≤ total) :
    (pos + readLength bytes total pos).toNat =
      pos.toNat + min bytes.toNat (total.toNat - pos.toNat) := by
  have hle : pos.toNat ≤ total.toNat := h
  have htotal := total.toNat_lt
  rw [UInt32.toNat_add, readLength_toNat _ h]
  omega

/-- What a read from `pos` on gives of `data`, and where it leaves the descriptor; it may fail
    where `faults` says so. -/
def ReadStep (data : List UInt8) (faults : Prop) (pos : UInt32) (bytes : UInt64)
    (out : Option (List UInt8)) (pos' : UInt32) : Prop :=
  faults ∧ out = none ∧ pos' = pos ∨
    out = some ((data.drop pos.toNat).take bytes.toNat) ∧
      pos'.toNat = pos.toNat + min bytes.toNat (data.length - pos.toNat)

@[simp] theorem length_contents {cap : Nat} (buf : Buffer cap) (n : Nat) :
    (buf.contents n).length = n := by simp [Buffer.contents]

section
variable {cap : Nat} (buf : Buffer cap) (faults : Prop) {total pos : UInt32} (bytes : UInt64)

/-- A read behind the end of what is in a buffer. -/
theorem ReadStep.atEnd (h : pos ≥ total) :
    ReadStep (buf.contents total.toNat) faults pos bytes (some []) pos := by
  have hle : total.toNat ≤ pos.toNat := h
  have hdone : (buf.contents total.toNat).drop pos.toNat = [] :=
    List.drop_of_length_le (by rw [length_contents]; exact hle)
  refine Or.inr ⟨by rw [hdone, List.take_nil], ?_⟩
  rw [length_contents]
  omega

/-- A read of what is left. -/
theorem ReadStep.sliced (h : pos ≤ total) : ReadStep (buf.contents total.toNat) faults pos bytes
    (some (buf.slice pos.toNat (readLength bytes total pos).toNat))
    (pos + readLength bytes total pos) := by
  have hle : pos.toNat ≤ total.toNat := h
  have hlength := readLength_toNat bytes h
  refine Or.inr ⟨?_, ?_⟩
  · have hin : pos.toNat + (readLength bytes total pos).toNat ≤ total.toNat := by omega
    rw [buf.slice_eq hin, hlength, Option.some.injEq, List.take_eq_take_iff, List.length_drop,
      length_contents]
    omega
  · rw [add_readLength_toNat h, length_contents]

end

/-- The buffer a text was rendered into. -/
def textBuffer (r : Rendered) (scratch : Nat → UInt8) : Buffer vfsScratchMax :=
  ⟨fun j => (r.stored ++ [0]).getD j (scratch j)⟩

theorem textBuffer_contents {r : Rendered} (scratch : Nat → UInt8) {n : Nat}
    (h : n ≤ r.stored.length) : (textBuffer r scratch).contents n = r.stored.take n := by
  have hslice : r.slice scratch 0 n = (r.stored.drop 0).take n := slice_stored (by omega)
  simpa [Rendered.slice, Buffer.contents, textBuffer] using hslice

theorem readRendered_sliced (r : Rendered) (scratch : Nat → UInt8) {pos : UInt32}
    (hpos : pos ≤ r.pos) (bytes : UInt64) :
    ReadStep ((textBuffer r scratch).contents r.pos.toNat) False pos bytes
      (readRendered (some r) scratch pos bytes).1 (readRendered (some r) scratch pos bytes).2 := by
  unfold readRendered
  simp only
  split
  · rename_i hend
    exact ReadStep.atEnd (textBuffer r scratch) False bytes hend
  · exact ReadStep.sliced (textBuffer r scratch) False bytes hpos

/-- **A read of a text that fits.** -/
theorem readRendered_step (cap : UInt32) (hcap : 0 < cap.toNat) {text : List UInt8}
    (hfit : text.length ≤ cap.toNat - 1) {pos : UInt32} (hpos : pos.toNat ≤ text.length)
    (scratch : Nat → UInt8) (bytes : UInt64) :
    ReadStep text False pos bytes (readRendered (some (rendered cap text)) scratch pos bytes).1
      (readRendered (some (rendered cap text)) scratch pos bytes).2 := by
  have hcapLt := cap.toNat_lt
  have htotal : (UInt32.ofNat text.length).toNat = text.length :=
    UInt32.toNat_ofNat_of_lt' (by simp only [UInt32.size]; omega)
  have hrun : rendered cap text = ⟨text, UInt32.ofNat text.length⟩ := by
    rw [rendered_eq hcap text (by omega), List.take_of_length_le hfit]
  have htext : (textBuffer (rendered cap text) scratch).contents (rendered cap text).pos.toNat =
      text := by
    rw [hrun, htotal, textBuffer_contents _ (Nat.le_refl _), List.take_length]
  have hinside : pos ≤ (rendered cap text).pos := by
    rw [hrun, UInt32.le_iff_toNat_le, htotal]
    exact hpos
  have hstep := readRendered_sliced (rendered cap text) scratch hinside bytes
  rwa [htext] at hstep

end Proof
end BumbelBee
