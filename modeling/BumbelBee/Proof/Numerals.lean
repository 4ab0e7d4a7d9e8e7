import BumbelBee.Kernel.Fmt
import BumbelBee.Kernel.Processes
import BumbelBee.Kernel.Shell
import BumbelBee.Proof.Rendering
import BumbelBee.Proof.Scrollback

/-!
# Is every number written and read alike?

The digit loop is written out five times. Four of them watch the room in their temporary and
would leave digits out that do not fit; the formatter's does not, and would write behind it. No
`u64` has that many digits: each writes the canonical numeral, and both parsers read a `u32`'s
back (`numerals_exact`).

The five copies differ in what they do with a digit too many, so they cannot be had from one
another; what they share is the list of digits (`decimalDigits`), and each is shown to make that of
it. The bound that keeps them all within their temporaries is on the numeral and is proved once.
-/

namespace BumbelBee
namespace Proof

open Lib Kernel

/-! ## The formatter -/

theorem hexDigit_eq {d : Nat} (h : d < 16) : (cstr "0123456789abcdef").getD d 0 = baseChar d := by
  interval_cases d <;> rfl

/-- **The loop collects all digits**, when there is room for as many as the number can have. -/
theorem collectDigits_eq {base : UInt64} (hbase : 2 ≤ base.toNat) (hbase' : base.toNat ≤ 16) :
    ∀ (room : Nat) (value : UInt64), value.toNat < base.toNat ^ room →
      collectDigits base room value = .ok ((Nat.digits base.toNat value.toNat).map baseChar) := by
  intro room
  induction room with
  | zero =>
    intro value hroom
    have hzero : value = 0 := UInt64.toNat_inj.mp (by simpa using hroom)
    rw [collectDigits, if_pos hzero, hzero]
    simp
  | succ room ih =>
    intro value hroom
    rw [collectDigits]
    split
    · rename_i hzero
      rw [hzero]
      simp
    · rename_i hne
      have hdiv : (value / base).toNat = value.toNat / base.toNat := UInt64.toNat_div value base
      have hmod : (value % base).toNat = value.toNat % base.toNat := UInt64.toNat_mod value base
      have hpos : 0 < value.toNat := Nat.pos_of_ne_zero fun h0 => hne (UInt64.toNat_inj.mp h0)
      have hlt : value.toNat % base.toNat < base.toNat := Nat.mod_lt _ (by omega)
      have hrest : (value / base).toNat < base.toNat ^ room := by
        rw [hdiv]
        exact Nat.div_lt_of_lt_mul (by rwa [Nat.pow_succ, Nat.mul_comm] at hroom)
      rw [ih _ hrest, hmod, hdiv, Nat.digits_def' (by omega) hpos, List.map_cons,
        hexDigit_eq (by omega)]
      rfl

/-- **The numeral of a number**, without leaving the temporary. -/
theorem emitUnsigned_eq {base : UInt32} (hbase : 2 ≤ base.toNat) (hbase' : base.toNat ≤ 16)
    {value : UInt64} (hroom : value.toNat < base.toNat ^ 32) :
    emitUnsigned value base = .ok (numeral base.toNat value.toNat) := by
  have hsame : base.toUInt64.toNat = base.toNat := UInt32.toNat_toUInt64 base
  unfold emitUnsigned numeral
  by_cases hzero : value = 0
  · rw [if_pos hzero, if_pos (by rw [hzero]; rfl)]
    rfl
  · have hne : value.toNat ≠ 0 := fun h0 => hzero (UInt64.toNat_inj.mp h0)
    rw [if_neg hzero, if_neg hne,
      collectDigits_eq (by omega) (by omega) 32 value (by rw [hsame]; exact hroom), hsame]
    rfl

theorem emitUnsigned_ten (value : UInt64) : emitUnsigned value 10 = .ok (numeral 10 value.toNat) :=
  emitUnsigned_eq (by decide) (by decide) (Nat.lt_trans value.toNat_lt (by decide))

theorem emitUnsigned_sixteen (value : UInt64) :
    emitUnsigned value 16 = .ok (numeral 16 value.toNat) :=
  emitUnsigned_eq (by decide) (by decide) (Nat.lt_trans value.toNat_lt (by decide))

theorem emitSigned_ok (value : UInt64) : ∃ out, emitSigned value = .ok out := by
  unfold emitSigned
  split
  · rw [emitUnsigned_ten]
    exact ⟨_, rfl⟩
  · exact ⟨_, emitUnsigned_ten value⟩

/-! ## The screen -/

/-- A text that fits on its row is written all. -/
theorem writeAt_eq (r : Nat) (attr : UInt8) : ∀ (s : List UInt8) (c : Nat), c + s.length ≤ screenW →
    writeAt r c s attr = rowPuts r c s.length (fun i => s.getD i 0) attr
  | [], _, _ => rfl
  | ch :: s, c, hfits => by
    rw [List.length_cons] at hfits
    have hshift : rowPuts r c (ch :: s).length (fun i => (ch :: s).getD i 0) attr =
        ⟨r, c, ch, attr⟩ :: rowPuts r (c + 1) s.length (fun i => s.getD i 0) attr := by
      rw [rowPuts, rowPuts, List.length_cons, List.range_succ_eq_map, List.map_cons, List.map_map]
      refine congrArg _ (List.map_congr_left fun i _ => ?_)
      rw [Function.comp_apply, List.getD_cons_succ, Nat.add_assoc, Nat.add_comm 1 i]
    rw [writeAt, if_pos (by omega), writeAt_eq r attr s (c + 1) (by omega), hshift]

theorem writeU64At_eq (r c : Nat) (value : UInt64) (attr : UInt8)
    (hfits : c + (decimal value.toNat).length ≤ screenW) :
    writeU64At r c value attr =
      rowPuts r c (decimal value.toNat).length (fun i => (decimal value.toNat).getD i 0) attr := by
  rw [← writeAt_eq r attr _ c hfits]
  unfold writeU64At decimal
  by_cases hzero : value = 0
  · have hpos := List.length_pos_of_ne_nil (decimal_ne_nil value.toNat)
    rw [if_pos hzero, if_pos (by rw [hzero]; rfl), writeAt, if_pos (by omega)]
    rfl
  · have hlt : value.toNat < 10 ^ 32 := Nat.lt_trans value.toNat_lt (by decide)
    have hne : value.toNat ≠ 0 := fun h0 => hzero (UInt64.toNat_inj.mp h0)
    rw [if_neg hzero, if_neg hne, decimalDigits_eq 32 _ hlt]

/-! ## The parsers -/

theorem shellParseU32_decimal (n : Nat) : shellParseU32 (decimal n) = UInt32.ofNat n := by
  have hparse := parseDigits_append (decimal n) [] (fun c hc => mem_decimal hc)
    (fun c hc => absurd hc (by simp)) 0
  rw [List.append_nil, readDigits_decimal] at hparse
  exact hparse

/-- On digits the two parsers do the same. -/
theorem foldl_digits_eq : ∀ (s : List UInt8) (value : UInt32),
    (∀ c ∈ s, 0x30 ≤ c.toNat ∧ c.toNat ≤ 0x39) →
      s.foldl (fun value c => value * 10 + (c - 0x30).toUInt32) value = parseDigits value s
  | [], _, _ => rfl
  | c :: s, value, hall => by
    have hdigit : 0x30 ≤ c ∧ c ≤ 0x39 := hall c List.mem_cons_self
    rw [List.foldl_cons, parseDigits, if_pos hdigit]
    exact foldl_digits_eq s _ fun d hd => hall d (List.mem_cons_of_mem c hd)

theorem parseU32_decimal (n : Nat) : parseU32 (decimal n) = some (UInt32.ofNat n) := by
  have hdigits : (decimal n).all isDigit = true := by
    rw [List.all_eq_true]
    intro c hc
    obtain ⟨hlow, hhigh⟩ := mem_decimal hc
    have hdigit : 0x30 ≤ c ∧ c ≤ 0x39 := ⟨hlow, hhigh⟩
    simp [isDigit, hdigit]
  have hplain : ¬ (decimal n = [] ∨ (decimal n).all isDigit = false) := by
    rw [hdigits]
    simp [decimal_ne_nil]
  rw [parseU32, if_neg hplain, foldl_digits_eq _ _ fun c hc => mem_decimal hc]
  exact congrArg some (shellParseU32_decimal n)

/-! ## All of them -/

/-- **Numbers are written exactly, and read back**: every copy of the digit loop writes the
    canonical numeral of every `u64`, its temporary has room for more digits, and both parsers
    give a `u32` back from its numeral.

    There is no hypothesis but on the last part, where the number has to be one the parsers can
    return; on the screen's copy, which is about a row with room for the digits, the room is stated
    with it. -/
theorem numerals_exact (v : UInt64) :
    (Canonical 10 v.toNat (decimal v.toNat) ∧ Canonical 16 v.toNat (numeral 16 v.toNat)) ∧
      (emitUnsigned v 10 = .ok (decimal v.toNat) ∧ emitUnsigned v 16 = .ok (numeral 16 v.toNat)) ∧
      (∀ cap r, appendU64 cap r v = appendStr cap r (decimal v.toNat) ∧
        appendU64Dec cap r v = appendStr cap r (decimal v.toNat) ∧
        builtinAppendU64 cap r v = appendStr cap r (decimal v.toNat)) ∧
      (∀ r c attr, c + (decimal v.toNat).length ≤ screenW → writeU64At r c v attr =
        rowPuts r c (decimal v.toNat).length (fun i => (decimal v.toNat).getD i 0) attr) ∧
      (decimalDigits 32 v).length < 32 ∧
      (v.toNat < 2 ^ 32 → (shellParseU32 (decimal v.toNat)).toNat = v.toNat ∧
        ∃ n, parseU32 (decimal v.toNat) = some n ∧ n.toNat = v.toNat) := by
  have hten := numeral_ten v.toNat
  have happend : ∀ cap r, appendU64 cap r v = appendStr cap r (decimal v.toNat) :=
    fun cap r => appendU64_eq cap r v
  refine ⟨⟨?_, numeral_canonical (by decide) _⟩, ⟨?_, emitUnsigned_sixteen v⟩,
    fun cap r => ⟨happend cap r, happend cap r, happend cap r⟩,
    fun r c attr hfits => writeU64At_eq r c v attr hfits, ?_, fun hsmall => ?_⟩
  · rw [← hten]
    exact numeral_canonical (by decide) _
  · rw [emitUnsigned_ten, hten]
  · have hlt : v.toNat < 10 ^ 20 := Nat.lt_trans v.toNat_lt (by decide)
    have hlength := (Nat.digits_length_le_iff (show 1 < 10 by decide) (k := 20) v.toNat).mpr hlt
    rw [decimalDigits_eq 32 v (Nat.lt_trans hlt (by decide)), digitChars, List.length_map]
    omega
  · have hback : (UInt32.ofNat v.toNat).toNat = v.toNat := UInt32.toNat_ofNat_of_lt' hsmall
    rw [shellParseU32_decimal]
    exact ⟨hback, _, parseU32_decimal _, hback⟩

end Proof
end BumbelBee
