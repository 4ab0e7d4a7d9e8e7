import Mathlib.Data.Nat.Digits.Lemmas

/-!
# Decimal numerals

A number in ASCII digits, the most significant first and none in front that says nothing.
Reading the digits back gives the number (`readDigits_decimal`), and a number below `10 ^ k`
takes at most `k` of them.
-/

namespace BumbelBee
namespace Lib

def digitChar (d : Nat) : UInt8 := UInt8.ofNat (0x30 + d)

/-- The digits of a number, last first; zero has none. -/
def digitChars (n : Nat) : List UInt8 := (Nat.digits 10 n).map digitChar

def decimal (n : Nat) : List UInt8 := if n = 0 then [digitChar 0] else (digitChars n).reverse

/-- What digits behind the ones that made `value` make of it. -/
def readDigits (value : Nat) (s : List UInt8) : Nat :=
  s.foldl (fun value c => value * 10 + (c.toNat - 0x30)) value

theorem digitChar_toNat {d : Nat} (h : d < 10) : (digitChar d).toNat = 0x30 + d := by
  rw [digitChar, UInt8.toNat_ofNat']
  omega

@[simp] theorem digitChars_zero : digitChars 0 = [] := by simp [digitChars]

theorem digitChars_of_ne_zero {n : Nat} (h : n ≠ 0) :
    digitChars n = digitChar (n % 10) :: digitChars (n / 10) := by
  rw [digitChars, Nat.digits_def' (by decide) (Nat.pos_of_ne_zero h), List.map_cons, digitChars]

/-- Every character is a digit. -/
theorem mem_decimal {n : Nat} {c : UInt8} (h : c ∈ decimal n) :
    0x30 ≤ c.toNat ∧ c.toNat ≤ 0x39 := by
  have hdigit : ∃ d < 10, c = digitChar d := by
    unfold decimal at h
    split at h
    · exact ⟨0, by decide, List.mem_singleton.mp h⟩
    · rw [List.mem_reverse, digitChars, List.mem_map] at h
      obtain ⟨d, hd, rfl⟩ := h
      exact ⟨d, Nat.digits_lt_base (by decide) hd, rfl⟩
  obtain ⟨d, hd, rfl⟩ := hdigit
  rw [digitChar_toNat hd]
  omega

theorem decimal_ne_nil (n : Nat) : decimal n ≠ [] := by
  unfold decimal
  split
  · simp
  · rename_i h
    simp [digitChars_of_ne_zero h]

theorem length_decimal_le {n k : Nat} (hk : 0 < k) (h : n < 10 ^ k) : (decimal n).length ≤ k := by
  unfold decimal
  split
  · exact hk
  · rw [List.length_reverse, digitChars, List.length_map]
    exact (Nat.digits_length_le_iff (by decide) n).mpr h

/-- How many digits a number has. -/
def width (n : Nat) : Nat := Nat.log 10 n + 1

theorem length_decimal (n : Nat) : (decimal n).length = width n := by
  unfold decimal
  split
  · rename_i h
    rw [h]
    rfl
  · rename_i h
    rw [List.length_reverse, digitChars, List.length_map, Nat.length_digits 10 n (by decide) h, width]

theorem readDigits_append (value : Nat) (s t : List UInt8) :
    readDigits value (s ++ t) = readDigits (readDigits value s) t := List.foldl_append

theorem readDigits_digitChars (n : Nat) : readDigits 0 (digitChars n).reverse = n := by
  induction n using Nat.strong_induction_on with
  | _ n ih =>
    by_cases h : n = 0
    · rw [h]
      simp [readDigits]
    · have hmod : n % 10 < 10 := Nat.mod_lt n (by decide)
      have hdiv : n / 10 < n := Nat.div_lt_self (Nat.pos_of_ne_zero h) (by decide)
      rw [digitChars_of_ne_zero h, List.reverse_cons, readDigits_append, ih _ hdiv]
      simp only [readDigits, List.foldl_cons, List.foldl_nil, digitChar_toNat hmod]
      omega

/-- **Round trip.** -/
theorem readDigits_decimal (n : Nat) : readDigits 0 (decimal n) = n := by
  unfold decimal
  split
  · rename_i h
    rw [h]
    rfl
  · exact readDigits_digitChars n

/-! ## Any base up to sixteen -/

/-- A digit above nine is a letter. -/
def baseChar (d : Nat) : UInt8 := UInt8.ofNat (if d < 10 then 0x30 + d else 0x57 + d)

/-- A number in a base, the most significant digit first and none in front that says nothing. -/
def numeral (base n : Nat) : List UInt8 :=
  if n = 0 then [baseChar 0] else ((Nat.digits base n).map baseChar).reverse

theorem baseChar_of_lt {d : Nat} (h : d < 10) : baseChar d = digitChar d := by
  rw [baseChar, if_pos h, digitChar]

theorem numeral_ten (n : Nat) : numeral 10 n = decimal n := by
  have hdigits : (Nat.digits 10 n).map baseChar = digitChars n :=
    List.map_congr_left fun d hd => baseChar_of_lt (Nat.digits_lt_base (by decide) hd)
  rw [numeral, decimal, hdigits]
  rfl

/-- A string that writes a number in a base as it is to be written: digits below the base, not
    none, and no zero in front of others. -/
def Canonical (base n : Nat) (s : List UInt8) : Prop :=
  ∃ ds : List Nat, s = ds.map baseChar ∧ (∀ d ∈ ds, d < base) ∧ Nat.ofDigits base ds.reverse = n ∧
    ds ≠ [] ∧ (ds.head? = some 0 → ds = [0])

/-- **A numeral is canonical.** -/
theorem numeral_canonical {base : Nat} (hbase : 1 < base) (n : Nat) :
    Canonical base n (numeral base n) := by
  unfold numeral
  split
  · rename_i hzero
    exact ⟨[0], rfl, fun d hd => by rw [List.mem_singleton.mp hd]; omega, by rw [hzero]; rfl,
      List.cons_ne_nil 0 [], fun _ => rfl⟩
  · rename_i hne
    have hnil : Nat.digits base n ≠ [] := Nat.digits_ne_nil_iff_ne_zero.mpr hne
    refine ⟨(Nat.digits base n).reverse, List.map_reverse.symm, fun d hd => ?_, ?_, ?_, ?_⟩
    · exact Nat.digits_lt_base hbase (List.mem_reverse.mp hd)
    · rw [List.reverse_reverse, Nat.ofDigits_digits]
    · exact fun h => hnil (List.reverse_eq_nil_iff.mp h)
    · intro hfirst
      rw [List.head?_reverse, List.getLast?_eq_some_getLast hnil, Option.some_inj] at hfirst
      exact absurd hfirst (Nat.getLast_digit_ne_zero base hne)

end Lib
end BumbelBee
