import Mathlib.Data.List.GetD
import BumbelBee.Lib.Bytes

/-!
# Bytes of a 64-bit address space, page by page

A memory gives the byte at every address. `putBytes` and `getBytes` are `memcpy` into it and
out of it, `getWord` reads an element of an array of `u64`. What is put into one page leaves
every other page as it was, `SamePage`; what is read within a page depends on that page only.
-/

namespace BumbelBee
namespace Lib

def putBytes (addr : UInt64) (bytes : List UInt8) (mem : UInt64 → UInt8) : UInt64 → UInt8 := fun a =>
  if (a - addr).toNat < bytes.length then bytes.getD (a - addr).toNat 0 else mem a

def getBytes (addr : UInt64) (n : Nat) (mem : UInt64 → UInt8) : List UInt8 :=
  (List.range n).map fun i => mem (addr + UInt64.ofNat i)

def getWord (addr : UInt64) (mem : UInt64 → UInt8) : UInt64 := (takeU64 (getBytes addr 8 mem)).1

/-! ## Pages -/

def pageBytes : Nat := 4096

/-- The address of a page. -/
def IsPage (p : UInt64) : Prop := p.toNat % pageBytes = 0

instance (p : UInt64) : Decidable (IsPage p) := inferInstanceAs (Decidable (_ = _))

def InPage (p a : UInt64) : Prop := p.toNat ≤ a.toNat ∧ a.toNat < p.toNat + pageBytes

/-- The `n` bytes from `addr` on lie in the page. -/
def Within (p addr : UInt64) (n : Nat) : Prop :=
  p.toNat ≤ addr.toNat ∧ addr.toNat + n ≤ p.toNat + pageBytes

/-- Two memories hold the same bytes in a page. -/
def SamePage (p : UInt64) (mem mem' : UInt64 → UInt8) : Prop := ∀ a, InPage p a → mem' a = mem a

theorem IsPage.stop_le {p : UInt64} (h : IsPage p) : p.toNat + pageBytes ≤ 2 ^ 64 := by
  have hlt := p.toNat_lt
  simp only [IsPage, pageBytes] at h ⊢
  omega

/-- An address is in one page only. -/
theorem InPage.unique {p q a : UInt64} (hp : IsPage p) (hq : IsPage q) (ha : InPage p a)
    (ha' : InPage q a) : p = q := by
  simp only [IsPage, InPage, pageBytes] at hp hq ha ha'
  exact UInt64.toNat_inj.mp (by omega)

theorem SamePage.refl (p : UInt64) (mem : UInt64 → UInt8) : SamePage p mem mem := fun _ _ => rfl

theorem SamePage.trans {p : UInt64} {mem₀ mem₁ mem₂ : UInt64 → UInt8} (h : SamePage p mem₀ mem₁)
    (h' : SamePage p mem₁ mem₂) : SamePage p mem₀ mem₂ := fun a ha => (h' a ha).trans (h a ha)

/-! ## Putting and getting -/

variable {p q addr : UInt64} {bytes : List UInt8} {mem mem' : UInt64 → UInt8}

/-- What stands where, when the bytes do not run over the end of the address space. -/
theorem putBytes_at (hend : addr.toNat + bytes.length ≤ 2 ^ 64) (a : UInt64) :
    putBytes addr bytes mem a =
      if addr.toNat ≤ a.toNat ∧ a.toNat < addr.toNat + bytes.length then
        bytes.getD (a.toNat - addr.toNat) 0
      else mem a := by
  have ha := a.toNat_lt
  have haddr := addr.toNat_lt
  have hsub := UInt64.toNat_sub a addr
  by_cases hin : addr.toNat ≤ a.toNat ∧ a.toNat < addr.toNat + bytes.length
  · have hdiff : (a - addr).toNat = a.toNat - addr.toNat := by omega
    rw [putBytes, if_pos hin, hdiff, if_pos (by omega)]
  · rw [putBytes, if_neg hin, if_neg (by omega)]

@[simp] theorem putBytes_nil : putBytes addr [] mem = mem :=
  funext fun _ => if_neg (Nat.not_lt_zero _)

/-- Bytes put behind bytes. -/
theorem putBytes_append {us vs : List UInt8} (hend : addr.toNat + (us ++ vs).length ≤ 2 ^ 64)
    (hlt : addr.toNat + us.length < 2 ^ 64) :
    putBytes (addr + UInt64.ofNat us.length) vs (putBytes addr us mem) =
      putBytes addr (us ++ vs) mem := by
  rw [List.length_append] at hend
  have haddr : (addr + UInt64.ofNat us.length).toNat = addr.toNat + us.length := by
    rw [UInt64.toNat_add, UInt64.toNat_ofNat']
    omega
  funext a
  rw [putBytes_at (by rw [haddr]; omega), putBytes_at (by omega),
    putBytes_at (by rw [List.length_append]; exact hend), haddr, List.length_append]
  by_cases hbehind : addr.toNat + us.length ≤ a.toNat
  · have hindex : a.toNat - addr.toNat = us.length + (a.toNat - (addr.toNat + us.length)) := by omega
    have hget : (us ++ vs).getD (a.toNat - addr.toNat) 0 =
        vs.getD (a.toNat - (addr.toNat + us.length)) 0 := by
      rw [hindex, List.getD_eq_getElem?_getD, List.getD_eq_getElem?_getD,
        List.getElem?_append_right (by omega), Nat.add_sub_cancel_left]
    by_cases hin : a.toNat < addr.toNat + us.length + vs.length
    · rw [if_pos ⟨hbehind, hin⟩, if_pos ⟨by omega, by omega⟩, hget]
    · rw [if_neg (fun h => hin h.2), if_neg (fun h => by omega), if_neg (fun h => by omega)]
  · rw [if_neg (fun h => hbehind h.1)]
    by_cases hfrom : addr.toNat ≤ a.toNat
    · have hget : (us ++ vs).getD (a.toNat - addr.toNat) 0 = us.getD (a.toNat - addr.toNat) 0 := by
        rw [List.getD_eq_getElem?_getD, List.getD_eq_getElem?_getD,
          List.getElem?_append_left (by omega)]
      rw [if_pos ⟨hfrom, by omega⟩, if_pos ⟨hfrom, by omega⟩, hget]
    · rw [if_neg (fun h => hfrom h.1), if_neg (fun h => hfrom h.1)]

theorem Within.end_le (hp : IsPage p) {n : Nat} (h : Within p addr n) : addr.toNat + n ≤ 2 ^ 64 :=
  Nat.le_trans h.2 hp.stop_le

/-- **The other pages stay.** -/
theorem putBytes_other (hp : IsPage p) (hq : IsPage q) (hne : q ≠ p)
    (h : Within p addr bytes.length) : SamePage q mem (putBytes addr bytes mem) := by
  intro a ha
  rw [putBytes_at (h.end_le hp), if_neg]
  intro hin
  refine hne (ha.unique hq hp ⟨Nat.le_trans h.1 hin.1, ?_⟩)
  exact Nat.lt_of_lt_of_le hin.2 h.2

@[simp] theorem length_getBytes (addr : UInt64) (n : Nat) (mem : UInt64 → UInt8) :
    (getBytes addr n mem).length = n := by
  simp [getBytes]

theorem toNat_add_ofNat {n i : Nat} (hend : addr.toNat + n ≤ 2 ^ 64) (hi : i < n) :
    (addr + UInt64.ofNat i).toNat = addr.toNat + i := by
  rw [UInt64.toNat_add, UInt64.toNat_ofNat']
  omega

theorem getBytes_congr {n : Nat} (hend : addr.toNat + n ≤ 2 ^ 64)
    (h : ∀ a, addr.toNat ≤ a.toNat → a.toNat < addr.toNat + n → mem' a = mem a) :
    getBytes addr n mem' = getBytes addr n mem := by
  refine List.map_congr_left fun i hi => ?_
  have hi' := List.mem_range.mp hi
  have haddr := toNat_add_ofNat hend hi'
  exact h _ (by omega) (by omega)

/-- What is read within a page depends on it alone. -/
theorem SamePage.getBytes {n : Nat} (hsame : SamePage p mem mem') (hp : IsPage p)
    (h : Within p addr n) : getBytes addr n mem' = getBytes addr n mem :=
  getBytes_congr (h.end_le hp) fun a hlow hhigh =>
    hsame a ⟨Nat.le_trans h.1 hlow, Nat.lt_of_lt_of_le hhigh h.2⟩

theorem SamePage.getWord (hsame : SamePage p mem mem') (hp : IsPage p) (h : Within p addr 8) :
    getWord addr mem' = getWord addr mem := by
  rw [Lib.getWord, hsame.getBytes hp h]
  rfl

/-- Reading back a part of what was put. -/
theorem getBytes_putBytes_slice {off n : Nat} (hend : addr.toNat + bytes.length ≤ 2 ^ 64)
    (hoff : off + n ≤ bytes.length) :
    getBytes (addr + UInt64.ofNat off) n (putBytes addr bytes mem) = (bytes.drop off).take n := by
  refine List.ext_getElem (by simp; omega) fun i hi hi' => ?_
  have hin : i < n := by simpa using hi
  have haddr : (addr + UInt64.ofNat off + UInt64.ofNat i).toNat = addr.toNat + (off + i) := by
    rw [UInt64.add_assoc, ← UInt64.ofNat_add]
    exact toNat_add_ofNat hend (by omega)
  simp only [getBytes, List.getElem_map, List.getElem_range, List.getElem_take, List.getElem_drop]
  rw [putBytes_at hend, if_pos (by omega), haddr, Nat.add_sub_cancel_left,
    List.getD_eq_getElem _ _ (by omega)]

/-- A part of what is read. -/
theorem getBytes_slice {off n k : Nat} (hoff : off + n ≤ k) :
    ((getBytes addr k mem).drop off).take n = getBytes (addr + UInt64.ofNat off) n mem := by
  refine List.ext_getElem (by simp; omega) fun i hi hi' => ?_
  simp only [getBytes, List.getElem_map, List.getElem_range, List.getElem_take, List.getElem_drop]
  rw [UInt64.add_assoc, ← UInt64.ofNat_add]

/-- Reading back what was put. -/
theorem getBytes_putBytes (hend : addr.toNat + bytes.length ≤ 2 ^ 64) :
    getBytes addr bytes.length (putBytes addr bytes mem) = bytes := by
  have hslice := @getBytes_putBytes_slice addr bytes mem 0 bytes.length hend (by omega)
  rwa [List.drop_zero, List.take_length, show addr + UInt64.ofNat 0 = addr from UInt64.add_zero _]
    at hslice

/-- Outside the bytes that are put. -/
theorem putBytes_out (hend : addr.toNat + bytes.length ≤ 2 ^ 64) {a : UInt64}
    (h : a.toNat < addr.toNat ∨ addr.toNat + bytes.length ≤ a.toNat) :
    putBytes addr bytes mem a = mem a := by
  rw [putBytes_at hend, if_neg (by omega)]

theorem getBytes_putBytes_of_disjoint {addr' : UInt64} {n : Nat}
    (hend : addr.toNat + bytes.length ≤ 2 ^ 64) (hend' : addr'.toNat + n ≤ 2 ^ 64)
    (h : addr'.toNat + n ≤ addr.toNat ∨ addr.toNat + bytes.length ≤ addr'.toNat) :
    getBytes addr' n (putBytes addr bytes mem) = getBytes addr' n mem := by
  apply getBytes_congr hend'
  intro a hlow hhigh
  exact putBytes_out hend (by omega)

theorem getWord_putWord {value : UInt64} (hend : addr.toNat + 8 ≤ 2 ^ 64) :
    getWord addr (putBytes addr (putU64 value) mem) = value := by
  have hback := @getBytes_putBytes addr (putU64 value) mem (by rw [length_putU64]; exact hend)
  rw [length_putU64] at hback
  have htake := takeU64_put value []
  rw [List.append_nil] at htake
  rw [getWord, hback, htake]

/-- Another word stays. -/
theorem getWord_putBytes_of_disjoint {addr' : UInt64} (hend : addr.toNat + bytes.length ≤ 2 ^ 64)
    (hend' : addr'.toNat + 8 ≤ 2 ^ 64)
    (h : addr'.toNat + 8 ≤ addr.toNat ∨ addr.toNat + bytes.length ≤ addr'.toNat) :
    getWord addr' (putBytes addr bytes mem) = getWord addr' mem := by
  rw [getWord, getBytes_congr hend' fun a hlow hhigh => ?_]
  · rfl
  · rw [putBytes_at hend, if_neg (by omega)]

theorem getWord_congr (hend : addr.toNat + 8 ≤ 2 ^ 64)
    (h : ∀ a, addr.toNat ≤ a.toNat → a.toNat < addr.toNat + 8 → mem' a = mem a) :
    getWord addr mem' = getWord addr mem := by
  rw [getWord, getBytes_congr hend h]
  rfl

/-- A word among zeroes is zero. -/
theorem getWord_of_zero (hend : addr.toNat + 8 ≤ 2 ^ 64)
    (h : ∀ a, addr.toNat ≤ a.toNat → a.toNat < addr.toNat + 8 → mem a = 0) : getWord addr mem = 0 := by
  have hzero : getBytes addr 8 mem = getBytes addr 8 (fun _ => 0) := getBytes_congr hend h
  rw [getWord, hzero]
  rfl

/-! ## Fields of a word -/

/-- The `w` bits from `lo` on. -/
theorem toNat_and_mask {mask : UInt64} (lo w : Nat) (a : UInt64)
    (hmask : mask.toNat = (2 ^ w - 1) <<< lo) :
    (a &&& mask).toNat = a.toNat / 2 ^ lo % 2 ^ w * 2 ^ lo := by
  rw [UInt64.toNat_and, hmask, ← Nat.shiftRight_eq_div_pow, ← Nat.shiftLeft_eq]
  refine Nat.eq_of_testBit_eq fun i => ?_
  rw [Nat.testBit_and, Nat.testBit_shiftLeft, Nat.testBit_shiftLeft, Nat.testBit_mod_two_pow,
    Nat.testBit_shiftRight, Nat.testBit_two_pow_sub_one]
  by_cases hlow : lo ≤ i
  · rw [show lo + (i - lo) = i by omega]
    simp [hlow, Bool.and_comm]
  · simp [hlow]

/-- The page of an address, and where in it the address stands. -/
theorem toNat_page (a : UInt64) :
    (a &&& 0xfffffffffffff000).toNat = a.toNat / pageBytes * pageBytes := by
  have ha := a.toNat_lt
  rw [toNat_and_mask 12 52 a (by decide), Nat.mod_eq_of_lt (by omega)]
  rfl

theorem toNat_offset (a : UInt64) : (a &&& 0xfff).toNat = a.toNat % pageBytes := by
  rw [toNat_and_mask 0 12 a (by decide)]
  simp [pageBytes]

theorem toNat_shiftLeft_of_lt {a n : UInt64} (k : Nat) (hn : n.toNat = k) (hk : k < 64)
    (h : a.toNat * 2 ^ k < 2 ^ 64) : (a <<< n).toNat = a.toNat * 2 ^ k := by
  rw [UInt64.toNat_shiftLeft, hn, Nat.mod_eq_of_lt hk, Nat.shiftLeft_eq, Nat.mod_eq_of_lt h]

/-- The `w` bits from `lo` on, moved down. -/
theorem toNat_field {a n mask : UInt64} (lo w : Nat) (hn : n.toNat = lo) (hlo : lo < 64)
    (hmask : mask.toNat = 2 ^ w - 1) : (a >>> n &&& mask).toNat = a.toNat / 2 ^ lo % 2 ^ w := by
  rw [toNat_and_mask 0 w _ (by rw [hmask, Nat.shiftLeft_zero]), UInt64.toNat_shiftRight, hn,
    Nat.mod_eq_of_lt hlo, Nat.shiftRight_eq_div_pow, pow_zero, Nat.div_one, Nat.mul_one]

/-- Flags below a page's address. -/
theorem toNat_or_flags {p flags : UInt64} (lo : Nat) (hp : p.toNat % 2 ^ lo = 0)
    (hflags : flags.toNat < 2 ^ lo) : (p ||| flags).toNat = p.toNat + flags.toNat := by
  have hsplit := Nat.two_pow_add_eq_or_of_lt hflags (p.toNat / 2 ^ lo)
  rw [Nat.mul_div_cancel' (Nat.dvd_of_mod_eq_zero hp)] at hsplit
  rw [UInt64.toNat_or, hsplit]

/-- A field above the others. -/
theorem toNat_or_field {low high : UInt64} (lo : Nat) (hlow : low.toNat < 2 ^ lo)
    (hhigh : high.toNat % 2 ^ lo = 0) : (low ||| high).toNat = low.toNat + high.toNat := by
  rw [UInt64.or_comm, toNat_or_flags lo hhigh hlow, Nat.add_comm]

end Lib
end BumbelBee
