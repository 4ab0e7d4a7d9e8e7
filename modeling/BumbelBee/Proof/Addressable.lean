import Mathlib.Data.List.MinMax
import BumbelBee.Proof.Tables

/-!
# Can the kernel reach the pages it allocates?

The kernel writes to a page through its physical address, so the page has to be one that the
tables of stage 2 map onto itself. `memory_init` does not ask for that: it takes the longest
usable region of the firmware's map wherever it lies. `pages_addressable_iff` says for which
maps every page is in the first gigabyte.

What is delicate is the way from a page's address to the byte the kernel writes: the address is used
as a virtual one, and the walk is the processor's, through tables that stage 2 has written and that
lie in the same memory. `boot_walk` is that walk for every address, and the theorem puts the two
ends of the region against it.
-/

namespace BumbelBee
namespace Proof

open Lib Kernel

variable {m m' : Memory} {p : UInt64}

/-! ## `page_alloc` -/

theorem pageAlloc_page (h : m.allocNext.toNat + pageBytes ≤ m.allocLimit.toNat) :
    pageAlloc m = (m.allocNext, { m with
      allocNext := m.allocNext + 4096
      usedBytes := m.usedBytes + 4096 }) ∧
      (m.allocNext + 4096).toNat = m.allocNext.toNat + pageBytes := by
  have hlimit := m.allocLimit.toNat_lt
  have hsum : (m.allocNext + 4096).toNat = m.allocNext.toNat + pageBytes := by
    simp only [UInt64.toNat_add, UInt64.reduceToNat, pageBytes] at h ⊢
    omega
  refine ⟨if_neg ?_, hsum⟩
  rw [gt_iff_lt, UInt64.lt_iff_toNat_lt, hsum]
  omega

theorem pageAlloc_none (h : m.allocLimit.toNat < m.allocNext.toNat + pageBytes)
    (hhigh : m.allocNext.toNat + pageBytes < 2 ^ 64) : pageAlloc m = (0, m) := by
  have hsum : (m.allocNext + 4096).toNat = m.allocNext.toNat + pageBytes := by
    simp only [UInt64.toNat_add, UInt64.reduceToNat, pageBytes] at hhigh ⊢
    omega
  refine if_pos ?_
  rw [gt_iff_lt, UInt64.lt_iff_toNat_lt, hsum]
  exact h

/-- The page `k` calls further on is returned, if it ends by the limit. -/
theorem pageAllocs_reaches : ∀ (k : Nat) {m : Memory} {p : UInt64},
    p.toNat = m.allocNext.toNat + pageBytes * k → p.toNat + pageBytes ≤ m.allocLimit.toNat →
    p ≠ 0 → ∃ n, p ∈ pageAllocs n m := by
  intro k
  induction k with
  | zero =>
    intro m p hp hlimit hne
    have hfirst : p = m.allocNext := UInt64.toNat_inj.mp (by omega)
    refine ⟨1, ?_⟩
    rw [hfirst] at hlimit hne ⊢
    rw [pageAllocs, (pageAlloc_page hlimit).1]
    simp only [if_neg hne]
    exact List.mem_append_left _ List.mem_cons_self
  | succ k ih =>
    intro m p hp hlimit hne
    rw [Nat.mul_succ] at hp
    obtain ⟨hcall, hnext⟩ := pageAlloc_page (m := m) (by omega)
    obtain ⟨n, hn⟩ := @ih { m with
      allocNext := m.allocNext + 4096
      usedBytes := m.usedBytes + 4096 } p (by rw [hnext]; omega) hlimit hne
    refine ⟨n + 1, ?_⟩
    rw [pageAllocs, hcall]
    exact List.mem_append_right _ hn

/-- A limit that is not at the end of the address space is kept by every page. -/
theorem pageAllocs_within : ∀ (n : Nat) {m : Memory}, IsPage m.allocNext →
    m.allocNext.toNat + 2 * pageBytes ≤ 2 ^ 64 → m.allocLimit.toNat + 2 * pageBytes ≤ 2 ^ 64 →
    ∀ p ∈ pageAllocs n m, IsPage p ∧ p.toNat + pageBytes ≤ m.allocLimit.toNat
  | 0, _, _, _, _, _, hp => absurd hp List.not_mem_nil
  | n + 1, m, hpage, hnext, hlimit, p, hp => by
    have hbytes : pageBytes = 4096 := rfl
    by_cases hroom : m.allocNext.toNat + pageBytes ≤ m.allocLimit.toNat
    · obtain ⟨hcall, hsum⟩ := pageAlloc_page hroom
      rw [pageAllocs, hcall, List.mem_append] at hp
      rcases hp with hp | hp
      · split at hp
        · exact absurd hp List.not_mem_nil
        · rw [List.mem_singleton.mp hp]
          exact ⟨hpage, hroom⟩
      · refine @pageAllocs_within n { m with
          allocNext := m.allocNext + 4096
          usedBytes := m.usedBytes + 4096 } ?_ ?_ hlimit p hp
        · rw [IsPage, hsum, Nat.add_mod_right]
          exact hpage
        · rw [hsum]
          omega
    · rw [pageAllocs, pageAlloc_none (by omega) (by omega)] at hp
      exact pageAllocs_within n hpage hnext hlimit p hp

/-- The pages come in order, from where the allocator stands. -/
theorem pageAllocs_sorted (n : Nat) {m : Memory} (hnext : m.allocNext.toNat + 2 * pageBytes ≤ 2 ^ 64)
    (hlimit : m.allocLimit.toNat + 2 * pageBytes ≤ 2 ^ 64) :
    (∀ p ∈ pageAllocs n m, m.allocNext.toNat ≤ p.toNat) ∧
      (pageAllocs n m).Pairwise fun p q => p.toNat < q.toNat := by
  have hbytes : pageBytes = 4096 := rfl
  induction n generalizing m with
  | zero => exact ⟨fun p hp => absurd hp List.not_mem_nil, List.Pairwise.nil⟩
  | succ n ih =>
    by_cases hroom : m.allocNext.toNat + pageBytes ≤ m.allocLimit.toNat
    · obtain ⟨hcall, hsum⟩ := pageAlloc_page hroom
      obtain ⟨hfrom, hsorted⟩ := @ih { m with
        allocNext := m.allocNext + 4096
        usedBytes := m.usedBytes + 4096 } (by rw [hsum]; omega) hlimit
      simp only [hsum] at hfrom
      simp only [pageAllocs, hcall]
      by_cases hzero : m.allocNext = 0
      · rw [if_pos hzero, List.nil_append]
        exact ⟨fun p hp => by have := hfrom p hp; omega, hsorted⟩
      · rw [if_neg hzero, List.singleton_append]
        refine ⟨fun p hp => ?_, List.Pairwise.cons (fun p hp => ?_) hsorted⟩
        · rcases List.mem_cons.mp hp with hp | hp
          · exact hp ▸ Nat.le_refl _
          · have := hfrom p hp
            omega
        · have := hfrom p hp
          omega
    · rw [pageAllocs, pageAlloc_none (by omega) (by omega)]
      exact ih hnext hlimit

/-- So none comes twice. -/
theorem pageAllocs_nodup (n : Nat) {m : Memory} (hnext : m.allocNext.toNat + 2 * pageBytes ≤ 2 ^ 64)
    (hlimit : m.allocLimit.toNat + 2 * pageBytes ≤ 2 ^ 64) : (pageAllocs n m).Nodup :=
  (pageAllocs_sorted n hnext hlimit).2.imp fun hlt heq => Nat.ne_of_lt hlt (congrArg UInt64.toNat heq)

/-- Where not a single page fits, none is returned. -/
theorem pageAllocs_nil (h : m.allocLimit.toNat < m.allocNext.toNat + pageBytes)
    (hhigh : m.allocNext.toNat + pageBytes < 2 ^ 64) : ∀ n, pageAllocs n m = [] := by
  intro n
  induction n with
  | zero => rfl
  | succ n ih =>
    rw [pageAllocs, pageAlloc_none h hhigh]
    exact ih

/-! ## `memory_init`

The scan keeps the longest usable entry it has seen, and of two that are equally long the first. Its
start is then raised to 2 MiB and rounded up, its end rounded down, with sums that may wrap.
-/

/-- An entry that can become the region pages are taken from. -/
def usableEntry (e : E820Entry) : Bool := e.type == 1 && e.base ≥ 0x100000 && e.length != 0

/-- The first longest of the usable entries. -/
def chosenRegion (entries : List E820Entry) : Option E820Entry :=
  (entries.filter usableEntry).argmax fun e => e.length.toNat

def regionStop (e : E820Entry) : Nat := e.base.toNat + e.length.toNat

/-- Where the first page of the region would start. -/
def regionStart (e : E820Entry) : Nat :=
  (max e.base.toNat 0x200000 + (pageBytes - 1)) / pageBytes * pageBytes

/-- A usable entry becomes the chosen one when it is longer than the one before it. -/
theorem chosenRegion_snoc (entries : List E820Entry) (e : E820Entry) :
    chosenRegion (entries ++ [e]) =
      if usableEntry e ∧ ((chosenRegion entries).map (·.length)).getD 0 < e.length then some e
      else chosenRegion entries := by
  rw [chosenRegion, List.filter_append]
  by_cases husable : usableEntry e = true
  · rw [List.filter_cons_of_pos husable, List.filter_nil, List.argmax_concat]
    cases hbefore : (entries.filter usableEntry).argmax fun e => e.length.toNat with
    | none =>
      have hpos : 0 < e.length := by
        have hne : e.length ≠ 0 := by simp [usableEntry] at husable; exact husable.2
        rw [UInt64.lt_iff_toNat_lt]
        exact Nat.pos_of_ne_zero fun h0 => hne (UInt64.toNat_inj.mp h0)
      rw [chosenRegion, hbefore, if_pos ⟨husable, hpos⟩]
    | some c =>
      rw [chosenRegion, hbefore]
      simp only [husable, true_and, Option.map_some, Option.getD_some, UInt64.lt_iff_toNat_lt]
  · rw [List.filter_cons_of_neg husable, List.filter_nil, List.append_nil,
      if_neg fun h => husable h.1]
    rfl

/-- One entry of the map. -/
theorem memoryMap_entry (m : MemoryMap) (e : E820Entry) :
    ((m.entry e).allocBase, (m.entry e).allocLimit) =
      if usableEntry e ∧ m.allocLimit - m.allocBase < e.length then (e.base, e.base + e.length)
      else (m.allocBase, m.allocLimit) := by
  have hsame : (usableEntry e ∧ m.allocLimit - m.allocBase < e.length) ↔
      e.type = 1 ∧ e.base ≥ 0x100000 ∧ e.length > m.allocLimit - m.allocBase := by
    simp only [usableEntry, Bool.and_eq_true, beq_iff_eq, decide_eq_true_eq, bne_iff_ne]
    constructor
    · rintro ⟨⟨⟨htype, hbase⟩, -⟩, hlength⟩
      exact ⟨htype, hbase, hlength⟩
    · rintro ⟨htype, hbase, hlength⟩
      refine ⟨⟨⟨htype, hbase⟩, fun h0 => ?_⟩, hlength⟩
      rw [h0] at hlength
      exact absurd (UInt64.lt_iff_toNat_lt.mp hlength) (Nat.not_lt_zero _)
  simp only [hsame, MemoryMap.entry]
  by_cases htype : e.type = 1
  · by_cases hlonger : e.base ≥ 0x100000 ∧ e.length > m.allocLimit - m.allocBase
    · rw [if_pos htype, if_pos hlonger, if_pos ⟨htype, hlonger⟩]
    · rw [if_pos htype, if_neg hlonger, if_neg fun h => hlonger h.2]
  · rw [if_neg htype, if_neg fun h => htype h.1]

/-- **The scan** picks the chosen region. -/
theorem memoryMap_scan {m : MemoryMap} (hbase : m.allocBase = 0) (hlimit : m.allocLimit = 0)
    (entries : List E820Entry) :
    ((entries.foldl MemoryMap.entry m).allocBase, (entries.foldl MemoryMap.entry m).allocLimit) =
      ((chosenRegion entries).map fun e => (e.base, e.base + e.length)).getD (0, 0) := by
  induction entries using List.reverseRecOn with
  | nil => exact Prod.ext hbase hlimit
  | append_singleton entries e ih =>
    have hlength : (entries.foldl MemoryMap.entry m).allocLimit -
        (entries.foldl MemoryMap.entry m).allocBase =
          ((chosenRegion entries).map (·.length)).getD 0 := by
      obtain ⟨hb, hl⟩ := Prod.ext_iff.mp ih
      simp only at hb hl
      rw [hb, hl]
      cases chosenRegion entries with
      | none => rfl
      | some c =>
        simp only [Option.map_some, Option.getD_some]
        grind
    rw [List.foldl_append, List.foldl_cons, List.foldl_nil, memoryMap_entry, hlength,
      chosenRegion_snoc, ih]
    split <;> rfl

/-- The chosen region is one of the usable entries. -/
theorem chosenRegion_mem {entries : List E820Entry} {e : E820Entry}
    (h : chosenRegion entries = some e) : e ∈ entries ∧ usableEntry e = true :=
  List.mem_filter.mp (List.argmax_mem (Option.mem_def.mpr h))

/-- `memory_init`, by the region its scan picks. -/
theorem memoryInit_region (entries : List E820Entry) :
    let region := ((chosenRegion entries).map fun e => (e.base, e.base + e.length)).getD (0, 0)
    (memoryInit entries).allocNext =
        pageOf ((if region.1 < 0x200000 then 0x200000 else region.1) + 0xfff) ∧
      (memoryInit entries).allocLimit = region.2 := by
  intro region
  obtain ⟨hbase, hlimit⟩ := Prod.ext_iff.mp (memoryMap_scan
    (m := ⟨0, 0, UInt64.ofNat entries.length, 0, 0, 0⟩) rfl rfl entries)
  simp only at hbase hlimit
  have hregion : region.1 = _ := hbase.symm
  have hstop : region.2 = _ := hlimit.symm
  rw [hregion, hstop]
  simp only [memoryInit]
  split <;> exact ⟨rfl, rfl⟩

/-- **What `memory_init` leaves** when it finds a region. -/
theorem memoryInit_some {entries : List E820Entry} {e : E820Entry}
    (h : chosenRegion entries = some e) (hwrap : regionStop e < 2 ^ 64) :
    (memoryInit entries).allocNext.toNat = regionStart e % 2 ^ 64 ∧
      (memoryInit entries).allocLimit.toNat = regionStop e := by
  obtain ⟨hnext, hlimit⟩ := memoryInit_region entries
  rw [h] at hnext hlimit
  simp only [Option.map_some, Option.getD_some] at hnext hlimit
  have hbase := e.base.toNat_lt
  have hraised : (if e.base < 0x200000 then 0x200000 else e.base).toNat =
      max e.base.toNat 0x200000 := by
    split
    · rename_i hlow
      rw [UInt64.lt_iff_toNat_lt, show (0x200000 : UInt64).toNat = 0x200000 from rfl] at hlow
      rw [Nat.max_eq_right hlow.le]
      rfl
    · rename_i hhigh
      rw [UInt64.lt_iff_toNat_lt, show (0x200000 : UInt64).toNat = 0x200000 from rfl] at hhigh
      exact (Nat.max_eq_left (Nat.not_lt.mp hhigh)).symm
  refine ⟨?_, ?_⟩
  · rw [hnext, pageOf, toNat_page, UInt64.toNat_add, hraised, regionStart,
      show (0xfff : UInt64).toNat = 4095 from rfl, pageBytes]
    omega
  · rw [hlimit, UInt64.toNat_add]
    exact Nat.mod_eq_of_lt hwrap

/-- With no region there is no page. -/
theorem memoryInit_none {entries : List E820Entry} (h : chosenRegion entries = none) :
    (memoryInit entries).allocNext = 0x200000 ∧ (memoryInit entries).allocLimit = 0 := by
  obtain ⟨hnext, hlimit⟩ := memoryInit_region entries
  rw [h] at hnext hlimit
  exact ⟨hnext, hlimit⟩

/-! ## Agreement with the boot tables

The walk is the processor's over stage 2's tables, which map a gigabyte. A page is used through its
physical address, so this is a condition on the number and on nothing else.
-/

/-- The kernel reaches every byte of the page through its physical address. -/
def Addressable (m : Memory) (p : UInt64) : Prop :=
  ∀ a, InPage p a → (m.pageWalk m.cr3 a).map (·.phys) = some a

/-- The pages of the chosen region end by the first gigabyte, if there are any. -/
def FitsBootMap (entries : List E820Entry) : Prop :=
  ∀ e, chosenRegion entries = some e → regionStart e + 2 * pageBytes ≤ 2 ^ 64 ∧
    (regionStart e + pageBytes ≤ regionStop e → regionStop e / pageBytes * pageBytes ≤ 2 ^ 30)

theorem Addressable.low (h : Addressable (protectedModeEntry m) p) : p.toNat < 2 ^ 30 := by
  have hfirst := h p ⟨Nat.le_refl _, Nat.lt_add_of_pos_right (by decide)⟩
  rw [show (protectedModeEntry m).cr3 = pml4Table from rfl, boot_walk (BootTables.built m)] at hfirst
  by_contra hhigh
  rw [if_neg hhigh] at hfirst
  exact absurd hfirst (by simp)

theorem Addressable.of_low (m : Memory) (hp : IsPage p) (hlow : p.toNat < 2 ^ 30) :
    Addressable (protectedModeEntry m) p := by
  intro a ha
  have hin : a.toNat < 2 ^ 30 := by
    simp only [IsPage, InPage, pageBytes] at hp ha
    omega
  rw [show (protectedModeEntry m).cr3 = pml4Table from rfl, boot_walk (BootTables.built m),
    if_pos hin]
  rfl

/-- A region whose pages are all below the first gigabyte. -/
theorem allocs_low {entries : List E820Entry} (hfits : FitsBootMap entries)
    (hwrap : ∀ e ∈ entries, e.base.toNat + e.length.toNat < 2 ^ 64)
    (hnext : m.allocNext = (memoryInit entries).allocNext)
    (hlimit : m.allocLimit = (memoryInit entries).allocLimit) (n : Nat) :
    ∀ p ∈ pageAllocs n m, IsPage p ∧ p.toNat < 2 ^ 30 := by
  intro p hp
  cases hchosen : chosenRegion entries with
  | none =>
    obtain ⟨hstart, hstop⟩ := memoryInit_none hchosen
    rw [pageAllocs_nil (by rw [hlimit, hstop]; exact Nat.zero_lt_succ _)
      (by rw [hnext, hstart]; decide)] at hp
    exact absurd hp List.not_mem_nil
  | some e =>
    obtain ⟨hstart, hstop⟩ := memoryInit_some hchosen (hwrap e (chosenRegion_mem hchosen).1)
    obtain ⟨hhigh, hend⟩ := hfits e hchosen
    have hbytes : pageBytes = 4096 := rfl
    have hpage : regionStart e % pageBytes = 0 := Nat.mul_mod_left _ _
    rw [Nat.mod_eq_of_lt (by omega), ← hnext] at hstart
    rw [← hlimit] at hstop
    by_cases hroom : regionStart e + pageBytes ≤ regionStop e
    · have hlast := hend hroom
      have hsmall : regionStop e < 2 ^ 30 + 4096 := by
        rw [hbytes] at hlast
        omega
      obtain ⟨hpage', hwithin⟩ := pageAllocs_within n (by rw [IsPage, hstart]; exact hpage)
        (by omega) (by omega) p hp
      rw [hstop] at hwithin
      refine ⟨hpage', ?_⟩
      simp only [IsPage, pageBytes] at hpage' hwithin hlast
      omega
    · rw [pageAllocs_nil (by omega) (by omega)] at hp
      exact absurd hp List.not_mem_nil

/-- A map whose region is not like that gives a page that is not. -/
theorem allocs_high {entries : List E820Entry}
    (hwrap : ∀ e ∈ entries, e.base.toNat + e.length.toNat < 2 ^ 64)
    (hnext : m.allocNext = (memoryInit entries).allocNext)
    (hlimit : m.allocLimit = (memoryInit entries).allocLimit)
    (hlow : ∀ n, ∀ p ∈ pageAllocs n m, p.toNat < 2 ^ 30) : FitsBootMap entries := by
  intro e hchosen
  obtain ⟨hstart, hstop⟩ := memoryInit_some hchosen (hwrap e (chosenRegion_mem hchosen).1)
  rw [← hnext] at hstart
  rw [← hlimit] at hstop
  have hlt := m.allocLimit.toNat_lt
  have hbase := e.base.toNat_lt
  have hpage : regionStart e % 4096 = 0 := Nat.mul_mod_left _ _
  have hrounded : e.base.toNat ≤ regionStart e ∧ regionStart e < max e.base.toNat 0x200000 + 4096 := by
    simp only [regionStart, pageBytes]
    omega
  have hstopBase : e.base.toNat ≤ regionStop e := Nat.le_add_right _ _
  -- every whole page behind the first is returned some day
  have hreach : ∀ addr, addr % 4096 = 0 → m.allocNext.toNat % 4096 = 0 →
      m.allocNext.toNat ≤ addr → 0 < addr → addr + 4096 ≤ regionStop e → addr < 2 ^ 30 := by
    intro addr haddr hfirst hbehind hpos hend
    have hexact : (UInt64.ofNat addr).toNat = addr :=
      UInt64.toNat_ofNat_of_lt' (by simp only [UInt64.size]; omega)
    have hcalls : (UInt64.ofNat addr).toNat =
        m.allocNext.toNat + pageBytes * ((addr - m.allocNext.toNat) / 4096) := by
      rw [hexact, pageBytes]
      omega
    have hfits : (UInt64.ofNat addr).toNat + pageBytes ≤ m.allocLimit.toNat := by
      rw [hexact, hstop]
      exact hend
    obtain ⟨n, hn⟩ := pageAllocs_reaches _ hcalls hfits fun h0 => by
      rw [h0, UInt64.toNat_zero] at hexact
      omega
    have hp := hlow n _ hn
    omega
  simp only [pageBytes]
  by_cases htop : regionStart e + 2 * 4096 ≤ 2 ^ 64
  · rw [Nat.mod_eq_of_lt (by omega)] at hstart
    refine ⟨htop, fun hroom => ?_⟩
    by_contra hend
    have hlast := hreach (regionStop e / 4096 * 4096 - 4096) (by omega) (by omega)
      (by omega) (by omega) (by omega)
    omega
  · exfalso
    by_cases hwrapped : regionStart e = 2 ^ 64
    · -- the start is rounded up to 0
      rw [hwrapped, Nat.mod_self] at hstart
      exact absurd (hreach (2 ^ 30) (by decide) (by omega) (by omega) (by decide) (by omega))
        (Nat.lt_irrefl _)
    · -- the last page of all ends at 0, which no limit is below
      have hlast : m.allocNext.toNat = 2 ^ 64 - 4096 := by omega
      have hsum : m.allocNext + 4096 = 0 := by
        rw [← UInt64.toNat_inj, UInt64.toNat_add, hlast]
        rfl
      obtain ⟨m', hcall⟩ : ∃ m', pageAlloc m = (m.allocNext, m') := by
        rw [pageAlloc, hsum, if_neg (fun h => absurd (UInt64.lt_iff_toNat_lt.mp h) (Nat.not_lt_zero _))]
        exact ⟨_, rfl⟩
      have hne : m.allocNext ≠ 0 := fun h0 => by
        rw [h0, UInt64.toNat_zero] at hlast
        omega
      have hmem : m.allocNext ∈ pageAllocs 1 m := by
        rw [pageAllocs, hcall]
        simp only [if_neg hne]
        exact List.mem_append_left _ List.mem_cons_self
      have hp := hlow 1 _ hmem
      omega

/-- **Every allocated page is addressable** exactly for the maps whose chosen region ends by
    the first gigabyte, as far as it holds whole pages.

    `entries` is any map the firmware may report, unsorted and overlapping as it likes. `hwrap`
    keeps the end of an entry from going round 2⁶⁴: the region would then be chosen by a sum that
    means nothing. `m` is the memory stage 2 finds, whatever is in it. -/
theorem pages_addressable_iff (entries : List E820Entry)
    (hwrap : ∀ e ∈ entries, e.base.toNat + e.length.toNat < 2 ^ 64) (m : Memory) :
    let boot := protectedModeEntry m
    (∀ n, ∀ p ∈ pageAllocs n ((memoryInit entries).memory boot.cr3 boot.phys),
      Addressable boot p) ↔ FitsBootMap entries := by
  intro boot
  constructor
  · intro h
    apply allocs_high (m := (memoryInit entries).memory boot.cr3 boot.phys) hwrap rfl rfl
    exact fun n p hp => (h n p hp).low
  · intro hfits n p hp
    obtain ⟨hpage, hlow⟩ := allocs_low hfits hwrap rfl rfl n p hp
    exact Addressable.of_low m hpage hlow

/-- A memory before stage 2. -/
def blankMemory : Memory := ⟨0, 0, 0, 0, fun _ => 0⟩

/-- A machine with 128 MiB: every page it ever gives out is addressable. -/
theorem pages_addressable_small :
    let boot := protectedModeEntry blankMemory
    ∀ n, ∀ p ∈ pageAllocs n ((memoryInit [⟨0, 0x9fc00, 1⟩, ⟨0x100000, 0x7ee0000, 1⟩,
      ⟨0x7fe0000, 0x20000, 2⟩]).memory boot.cr3 boot.phys), Addressable boot p := by
  intro boot
  apply (pages_addressable_iff _ (by decide) blankMemory).mpr
  intro e hchosen
  rw [show chosenRegion [⟨0, 0x9fc00, 1⟩, ⟨0x100000, 0x7ee0000, 1⟩, ⟨0x7fe0000, 0x20000, 2⟩] =
    some ⟨0x100000, 0x7ee0000, 1⟩ by decide, Option.some.injEq] at hchosen
  rw [← hchosen]
  decide

/-- A machine with 8 GiB, the longest part of it above the fourth: the first page is out of
    reach. -/
theorem page_not_addressable :
    let entries : List E820Entry :=
      [⟨0, 0x9fc00, 1⟩, ⟨0x100000, 0xbff00000, 1⟩, ⟨0x100000000, 0x140000000, 1⟩]
    let boot := protectedModeEntry blankMemory
    (∀ e ∈ entries, e.base.toNat + e.length.toNat < 2 ^ 64) ∧
      ∃ p ∈ pageAllocs 1 ((memoryInit entries).memory boot.cr3 boot.phys), ¬ Addressable boot p := by
  intro entries boot
  refine ⟨by decide, 0x100000000, by decide +kernel, fun h => ?_⟩
  exact absurd h.low (by decide)

end Proof
end BumbelBee
