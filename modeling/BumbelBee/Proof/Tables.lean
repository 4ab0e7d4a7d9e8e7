import BumbelBee.Lib.Pages
import BumbelBee.Kernel.MemoryMap

/-!
# Page tables in memory

A table is a page of 512 entries. Setting an entry, clearing a page and copying one touch that
page only; `pageWalk` comes down to the entries of four tables. The tables stage 2 builds map
the first gigabyte onto itself and nothing else (`boot_walk`).

An entry is eight bytes at a multiple of eight in a page, and everything here says that pages do not
overlap and that entries of a page do not. None of it is deep, and all of it has to be there before
a walk can be followed through a memory in which other tables are being written.
-/

namespace BumbelBee
namespace Proof

open Lib Kernel

variable {p q t i j v : UInt64} {m m' : Memory}

/-! ## Entries -/

theorem isPage_pageOf (a : UInt64) : IsPage (pageOf a) := by
  rw [IsPage, pageOf, toNat_page]
  exact Nat.mul_mod_left _ _

theorem toNat_tableIndex {shift addr : UInt64} (hshift : shift.toNat < 64) :
    (tableIndex shift addr).toNat = addr.toNat / 2 ^ shift.toNat % 512 := by
  rw [tableIndex, toNat_and_mask 0 9 _ (by decide), UInt64.toNat_shiftRight,
    Nat.shiftRight_eq_div_pow, Nat.mod_eq_of_lt hshift]
  simp

theorem tableIndex_lt (shift addr : UInt64) : (tableIndex shift addr).toNat < 512 := by
  rw [tableIndex, UInt64.toNat_and]
  exact Nat.lt_of_le_of_lt Nat.and_le_right (by decide)

theorem toNat_slot (ht : IsPage t) (hi : i.toNat < 512) :
    (t + 8 * i).toNat = t.toNat + 8 * i.toNat := by
  have hstop := ht.stop_le
  simp only [UInt64.toNat_add, UInt64.toNat_mul, UInt64.reduceToNat, pageBytes] at hstop ⊢
  omega

/-- An entry is within its table. -/
theorem within_slot (ht : IsPage t) (hi : i.toNat < 512) : Within t (t + 8 * i) 8 := by
  rw [Within, toNat_slot ht hi, pageBytes]
  omega

theorem entry_same (hsame : SamePage t m.phys m'.phys) (ht : IsPage t) (hi : i.toNat < 512) :
    m'.entry t i = m.entry t i := hsame.getWord ht (within_slot ht hi)

/-! ## What one store does -/

theorem setEntry_other (ht : IsPage t) (hi : i.toNat < 512) (hq : IsPage q) (hne : q ≠ t) :
    SamePage q m.phys (m.setEntry t i v).phys :=
  putBytes_other ht hq hne (by rw [length_putU64]; exact within_slot ht hi)

theorem entry_setEntry (ht : IsPage t) (hi : i.toNat < 512) (hj : j.toNat < 512) :
    (m.setEntry t i v).entry t j = if j = i then v else m.entry t j := by
  have hend := (within_slot ht hi).end_le ht
  split
  · rename_i h
    rw [h]
    exact getWord_putWord hend
  · rename_i hne
    have hne' : j.toNat ≠ i.toNat := fun h => hne (UInt64.toNat_inj.mp h)
    refine getWord_putBytes_of_disjoint (by rw [length_putU64]; exact hend)
      ((within_slot ht hj).end_le ht) ?_
    rw [length_putU64, toNat_slot ht hi, toNat_slot ht hj]
    omega

theorem Memory.store_phys (addr : UInt64) (bytes : List UInt8) (m : Memory) :
    (m.store addr bytes).phys = putBytes addr bytes m.phys := rfl

theorem Memory.clear_phys (addr : UInt64) (n : Nat) (m : Memory) :
    (m.clear addr n).phys = putBytes addr (List.replicate n 0) m.phys := rfl

theorem Memory.load_eq (addr : UInt64) (n : Nat) (m : Memory) :
    m.load addr n = getBytes addr n m.phys := rfl

theorem within_page (p : UInt64) : Within p p pageSize := ⟨Nat.le_refl _, Nat.le_refl _⟩

theorem clear_other (hp : IsPage p) (hq : IsPage q) (hne : q ≠ p) :
    SamePage q m.phys (m.clear p pageSize).phys := by
  rw [Memory.clear_phys]
  apply putBytes_other hp hq hne
  rw [List.length_replicate]
  exact within_page p

/-- A cleared page holds zeroes. -/
theorem clear_zero (hp : IsPage p) {a : UInt64} (ha : InPage p a) :
    (m.clear p pageSize).phys a = 0 := by
  have hlength : (List.replicate pageSize (0 : UInt8)).length = pageSize := List.length_replicate
  rw [Memory.clear_phys, putBytes_at (by rw [hlength]; exact hp.stop_le), hlength]
  split
  · rw [List.getD_eq_getElem?_getD, List.getElem?_replicate]
    split <;> rfl
  · rename_i hout
    exact absurd ha hout

theorem entry_clear (hp : IsPage p) (hi : i.toNat < 512) : (m.clear p pageSize).entry p i = 0 := by
  have hwithin := within_slot hp hi
  refine getWord_of_zero (hwithin.end_le hp) fun a hlow hhigh => clear_zero hp ⟨?_, ?_⟩
  · exact Nat.le_trans hwithin.1 hlow
  · exact Nat.lt_of_lt_of_le hhigh hwithin.2

theorem copy_other {r : UInt64} (hp : IsPage p) (hq : IsPage q) (hne : q ≠ p) :
    SamePage q m.phys (m.store p (m.load r pageSize)).phys := by
  rw [Memory.store_phys]
  apply putBytes_other hp hq hne
  rw [Memory.load_eq, length_getBytes]
  exact within_page p

/-- A page copied holds what the page it is copied from holds. -/
theorem entry_copy (hp : IsPage p) (hi : i.toNat < 512) :
    (m.store p (m.load q pageSize)).entry p i = m.entry q i := by
  have hindex : 8 * i = UInt64.ofNat (8 * i.toNat) := by
    rw [UInt64.ofNat_mul, UInt64.ofNat_toNat]
    rfl
  have hoff : 8 * i.toNat + 8 ≤ pageSize := by
    rw [pageSize]
    omega
  have hend : p.toNat + (getBytes q pageSize m.phys).length ≤ 2 ^ 64 := by
    rw [length_getBytes]
    exact hp.stop_le
  simp only [Memory.entry, Memory.load_eq, Memory.store_phys, hindex]
  rw [getBytes_putBytes_slice hend (by rw [length_getBytes]; exact hoff), getBytes_slice hoff]

/-! ## What an entry says -/

theorem flag_iff {flag : UInt64} (lo : Nat) (e : UInt64) (hflag : flag.toNat = 1 <<< lo) :
    (e &&& flag != 0) = decide (e.toNat / 2 ^ lo % 2 = 1) := by
  have hfield := toNat_and_mask lo 1 e hflag
  have hpos : 0 < 2 ^ lo := Nat.two_pow_pos lo
  rw [bne, beq_eq_decide, ← decide_not, decide_eq_decide, ← UInt64.toNat_inj, hfield]
  simp only [UInt64.toNat_zero, Nat.pow_one, Nat.mul_eq_zero]
  omega

theorem entryPresent_eq (e : UInt64) : entryPresent e = decide (e.toNat % 2 = 1) := by
  rw [entryPresent, flag_iff 0 e (by decide), Nat.pow_zero, Nat.div_one]

theorem entryUser_eq (e : UInt64) : entryUser e = decide (e.toNat / 4 % 2 = 1) :=
  flag_iff 2 e (by decide)

theorem entryLarge_eq (e : UInt64) : entryLarge e = decide (e.toNat / 128 % 2 = 1) :=
  flag_iff 7 e (by decide)

theorem toNat_table (hp : IsPage p) : (p ||| 0x007).toNat = p.toNat + 7 :=
  toNat_or_flags 12 hp (by decide)

/-- An entry the kernel makes for a page or a table. -/
theorem entry_table (hp : IsPage p) : entryPresent (p ||| 0x007) = true ∧
    entryUser (p ||| 0x007) = true ∧ entryLarge (p ||| 0x007) = false ∧
    pageOf (p ||| 0x007) = p ∧ (p.toNat < 2 ^ 52 → entryFrame (p ||| 0x007) = p) := by
  have hvalue := toNat_table hp
  have hlt := p.toNat_lt
  simp only [IsPage, pageBytes] at hp
  refine ⟨?_, ?_, ?_, ?_, fun hsmall => ?_⟩
  · rw [entryPresent_eq, decide_eq_true_eq]
    omega
  · rw [entryUser_eq, decide_eq_true_eq]
    omega
  · rw [entryLarge_eq, decide_eq_false_iff_not]
    omega
  · rw [← UInt64.toNat_inj, pageOf, toNat_page, pageBytes]
    omega
  · rw [← UInt64.toNat_inj, entryFrame, toNat_and_mask 12 40 _ (by decide)]
    omega

/-! ## The tables of stage 2 -/

theorem isPage_boot : IsPage pml4Table ∧ IsPage pdptTable ∧ IsPage pdTable := by decide

/-- The entries of the three tables. -/
structure BootTables (m : Memory) : Prop where
  pml4 : ∀ i : UInt64, i.toNat < 512 →
    m.entry pml4Table i = if i = 0 then pdptTable ||| 0x007 else 0
  pdpt : ∀ i : UInt64, i.toNat < 512 →
    m.entry pdptTable i = if i = 0 then pdTable ||| 0x007 else 0
  pd : ∀ i : UInt64, i.toNat < 512 → m.entry pdTable i = (i <<< 21) ||| 0x087

/-- `.map_loop`, `n` times round. -/
theorem mapEntries : ∀ n ≤ 512, ∀ m : Memory,
    (∀ q, IsPage q → q ≠ pdTable → SamePage q m.phys ((List.range n).foldl mapEntry m).phys) ∧
      ∀ i : UInt64, i.toNat < 512 → ((List.range n).foldl mapEntry m).entry pdTable i =
        if i.toNat < n then (i <<< 21) ||| 0x087 else m.entry pdTable i := by
  intro n
  induction n with
  | zero => exact fun _ m => ⟨fun q _ _ => SamePage.refl q _, fun i _ => (if_neg (Nat.not_lt_zero _)).symm⟩
  | succ n ih =>
    intro hn m
    obtain ⟨hother, hentry⟩ := ih (by omega) m
    have hindex : (UInt64.ofNat n).toNat = n := UInt64.toNat_ofNat_of_lt' (by simp [UInt64.size]; omega)
    have hlt : (UInt64.ofNat n).toNat < 512 := by omega
    rw [List.range_succ, List.foldl_append, List.foldl_cons, List.foldl_nil, mapEntry]
    refine ⟨fun q hq hne => (hother q hq hne).trans (setEntry_other isPage_boot.2.2 hlt hq hne), ?_⟩
    intro i hi
    rw [entry_setEntry isPage_boot.2.2 hlt hi, hentry i hi]
    by_cases heq : i = UInt64.ofNat n
    · rw [if_pos heq, if_pos (by rw [heq]; omega), heq]
    · have hne : i.toNat ≠ n := fun h => heq (by rw [← h, UInt64.ofNat_toNat])
      rw [if_neg heq]
      by_cases hbelow : i.toNat < n
      · rw [if_pos hbelow, if_pos (by omega)]
      · rw [if_neg hbelow, if_neg (by omega)]

/-- **What stage 2 writes** is what the structure says. -/
theorem BootTables.built (m : Memory) : BootTables (protectedModeEntry m) := by
  obtain ⟨hpml4, hpdpt, hpd⟩ := isPage_boot
  let m₁ := ((m.clear pml4Table pageSize).clear pdptTable pageSize).clear pdTable pageSize
  let m₂ := m₁.setEntry pml4Table 0 (pdptTable ||| 0x007)
  let m₃ := m₂.setEntry pdptTable 0 (pdTable ||| 0x007)
  -- the number of rounds is kept away from the evaluator
  obtain ⟨n, hn⟩ : ∃ n, n = 512 := ⟨512, rfl⟩
  have hrun : protectedModeEntry m =
      { (List.range n).foldl mapEntry m₃ with cr3 := pml4Table } := by rw [hn]; rfl
  obtain ⟨hother, hentry⟩ := mapEntries n hn.le m₃
  generalize (List.range n).foldl mapEntry m₃ = m₄ at hrun hother hentry
  have hzero : (0 : UInt64).toNat < 512 := by decide
  rw [hrun]
  refine ⟨fun i hi => ?_, fun i hi => ?_, fun i hi => ?_⟩
  · have hsame : SamePage pml4Table m₂.phys m₄.phys :=
      (setEntry_other hpdpt hzero hpml4 (by decide)).trans (hother _ hpml4 (by decide))
    have hclear : m₁.entry pml4Table i = 0 := by
      have hlater : SamePage pml4Table (m.clear pml4Table pageSize).phys m₁.phys :=
        (clear_other hpdpt hpml4 (by decide)).trans (clear_other hpd hpml4 (by decide))
      rw [entry_same hlater hpml4 hi, entry_clear hpml4 hi]
    refine (entry_same hsame hpml4 hi).trans ?_
    rw [entry_setEntry hpml4 hzero hi, hclear]
  · have hsame : SamePage pdptTable m₃.phys m₄.phys := hother _ hpdpt (by decide)
    have hclear : m₂.entry pdptTable i = 0 := by
      have hlater : SamePage pdptTable
          ((m.clear pml4Table pageSize).clear pdptTable pageSize).phys m₂.phys :=
        (clear_other hpd hpdpt (by decide)).trans (setEntry_other hpml4 hzero hpdpt (by decide))
      rw [entry_same hlater hpdpt hi, entry_clear hpdpt hi]
    refine (entry_same hsame hpdpt hi).trans ?_
    rw [entry_setEntry hpdpt hzero hi, hclear]
  · exact (hentry i hi).trans (if_pos (by omega))

/-- An entry of stage 2's page directory maps 2 MiB onto themselves. -/
theorem entry_large {i : UInt64} (hi : i.toNat < 512) :
    entryPresent ((i <<< 21) ||| 0x087) = true ∧ entryLarge ((i <<< 21) ||| 0x087) = true ∧
      entryUser ((i <<< 21) ||| 0x087) = true ∧
      (((i <<< 21) ||| 0x087) &&& 0x000fffffffe00000).toNat = i.toNat * 2 ^ 21 := by
  have hshift : (i <<< 21).toNat = i.toNat * 2 ^ 21 := by
    have hpow : (21 : UInt64).toNat % 64 = 21 := by decide
    rw [UInt64.toNat_shiftLeft, Nat.shiftLeft_eq, hpow]
    omega
  have hvalue : ((i <<< 21) ||| 0x087).toNat = i.toNat * 2 ^ 21 + 0x87 := by
    rw [toNat_or_flags 21 (by rw [hshift]; exact Nat.mul_mod_left _ _) (by decide), hshift]
    rfl
  refine ⟨?_, ?_, ?_, ?_⟩
  · rw [entryPresent_eq, decide_eq_true_eq]
    omega
  · rw [entryLarge_eq, decide_eq_true_eq]
    omega
  · rw [entryUser_eq, decide_eq_true_eq]
    omega
  · rw [toNat_and_mask 21 31 _ (by decide)]
    omega

theorem toNat_shiftRight_47 (vaddr : UInt64) : (vaddr >>> 47).toNat = vaddr.toNat / 2 ^ 47 := by
  rw [UInt64.toNat_shiftRight, Nat.shiftRight_eq_div_pow]
  rfl

/-- A canonical address under the first entry of the top table is below 512 GiB. -/
theorem canonical_low {vaddr : UInt64} (hcanon : ¬ (vaddr >>> 47 ≠ 0 ∧ vaddr >>> 47 ≠ 0x1ffff))
    (hindex : tableIndex 39 vaddr = 0) : vaddr.toNat < 2 ^ 39 := by
  have hvalue := toNat_shiftRight_47 vaddr
  have hlevel : (tableIndex 39 vaddr).toNat = vaddr.toNat / 2 ^ 39 % 512 :=
    toNat_tableIndex (by decide)
  rw [hindex, UInt64.toNat_zero] at hlevel
  rw [not_and_or, not_not, not_not] at hcanon
  rcases hcanon with hcanon | hcanon
  · rw [hcanon, UInt64.toNat_zero] at hvalue
    omega
  · rw [hcanon, show (0x1ffff : UInt64).toNat = 0x1ffff from rfl] at hvalue
    omega

theorem canonical_of_lt {vaddr : UInt64} (h : vaddr.toNat < 2 ^ 47) :
    ¬ (vaddr >>> 47 ≠ 0 ∧ vaddr >>> 47 ≠ 0x1ffff) := by
  have hzero : vaddr >>> 47 = 0 := by
    rw [← UInt64.toNat_inj, toNat_shiftRight_47, Nat.div_eq_of_lt h]
    rfl
  exact fun hne => hne.1 hzero

theorem tableIndex_eq_zero {shift addr : UInt64} (hshift : shift.toNat < 64) :
    tableIndex shift addr = 0 ↔ addr.toNat / 2 ^ shift.toNat % 512 = 0 := by
  rw [← UInt64.toNat_inj, toNat_tableIndex hshift]
  rfl

/-- The walk through the page directory of stage 2. -/
theorem boot_walkPd (h : BootTables m) {vaddr : UInt64} (hlow : vaddr.toNat < 2 ^ 30) :
    m.walkPd pdTable vaddr true = some ⟨vaddr, true⟩ := by
  have hindex : (tableIndex 21 vaddr).toNat = vaddr.toNat / 2 ^ 21 % 512 :=
    toNat_tableIndex (by decide)
  obtain ⟨hpresent, hlarge, huser, hframe⟩ := entry_large (tableIndex_lt 21 vaddr)
  have hoffset : (vaddr &&& 0x1fffff).toNat = vaddr.toNat % 2 ^ 21 := by
    rw [toNat_and_mask 0 21 _ (by decide)]
    simp
  have haddr : (((tableIndex 21 vaddr <<< 21) ||| 0x087) &&& 0x000fffffffe00000) +
      (vaddr &&& 0x1fffff) = vaddr := by
    rw [← UInt64.toNat_inj, UInt64.toNat_add, hframe, hoffset, hindex]
    omega
  rw [Memory.walkPd, h.pd _ (tableIndex_lt 21 vaddr)]
  simp only [hpresent, hlarge, huser, haddr, Bool.not_true, Bool.false_eq_true, if_false, if_true,
    Bool.and_self]

/-- **The boot tables map the first gigabyte onto itself**, for everyone, and nothing else. -/
theorem boot_walk (h : BootTables m) (vaddr : UInt64) : m.pageWalk pml4Table vaddr =
    if vaddr.toNat < 2 ^ 30 then some ⟨vaddr, true⟩ else none := by
  have hroot : entryFrame pml4Table = pml4Table ∧
      entryFrame (pdptTable ||| 0x007) = pdptTable ∧ entryPresent (pdptTable ||| 0x007) = true ∧
      entryUser (pdptTable ||| 0x007) = true ∧
      entryFrame (pdTable ||| 0x007) = pdTable ∧ entryPresent (pdTable ||| 0x007) = true ∧
      entryUser (pdTable ||| 0x007) = true ∧ entryLarge (pdTable ||| 0x007) = false := by decide
  obtain ⟨hpml4, hpdpt, hpresent, huser, hpd, hpresent', huser', hlarge⟩ := hroot
  rw [Memory.pageWalk, hpml4, h.pml4 _ (tableIndex_lt 39 vaddr)]
  by_cases hcanon : vaddr >>> 47 ≠ 0 ∧ vaddr >>> 47 ≠ 0x1ffff
  · have hhigh : ¬ vaddr.toNat < 2 ^ 30 := fun hlow =>
      canonical_of_lt (Nat.lt_of_lt_of_le hlow (by decide)) hcanon
    rw [if_pos hcanon, if_neg hhigh]
  rw [if_neg hcanon]
  by_cases h39 : tableIndex 39 vaddr = 0
  · have hbelow := canonical_low hcanon h39
    have h30 : tableIndex 30 vaddr = 0 ↔ vaddr.toNat < 2 ^ 30 := by
      rw [tableIndex_eq_zero (by decide), show (30 : UInt64).toNat = 30 from rfl]
      omega
    simp only [h39, if_true, hpresent, hpdpt, huser, h.pdpt _ (tableIndex_lt 30 vaddr),
      Bool.not_true, Bool.false_eq_true, if_false]
    by_cases hlow : vaddr.toNat < 2 ^ 30
    · simp only [h30.mpr hlow, if_true, hpresent', huser', hlarge, hpd, hlow, Bool.not_true,
        Bool.false_eq_true, if_false, Bool.and_self]
      exact boot_walkPd h hlow
    · rw [if_neg (fun h0 => hlow (h30.mp h0)), if_neg hlow]
      rfl
  · have hhigh : ¬ vaddr.toNat < 2 ^ 30 := fun hlow => h39 (by
      rw [tableIndex_eq_zero (by decide), show (39 : UInt64).toNat = 39 from rfl]
      omega)
    rw [if_neg h39, if_neg hhigh]
    rfl

end Proof
end BumbelBee
