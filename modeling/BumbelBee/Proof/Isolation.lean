import BumbelBee.Proof.Spaces

/-!
# What ring 3 can reach

Every space is cloned from the tables of stage 2, and those carry the user bit at every level:
the demonstration program is kernel code that runs in ring 3. So in an isolated space the first
gigabyte is as open as in the kernel's, and the space adds its window to it. Nothing else is
translated at all (`space_walk`); `isolated_user_reach` says so for every state of a run.

Two reasons make this more than a look at one table. The tables of a space lie in memory that the
space could be given for its window, so that nothing maps a table writable has to be an invariant.
And an entry's address bits are cut to what the processor takes, so a page beyond 2⁵² would be
another page.
-/

namespace BumbelBee
namespace Proof

open Lib Kernel

variable {use : UInt64 → Option PageUse} {m : Memory} {i : Fin aspaceMax} {a : AspaceSlot}
  {s : Aspaces}

/-! ## The boot tables as a root -/

/-- The tables of stage 2, and what no physical page is. -/
def bootReserved (q : UInt64) : Prop :=
  q = pml4Table ∨ q = pdptTable ∨ q = pdTable ∨ 2 ^ 52 ≤ q.toNat

instance (q : UInt64) : Decidable (bootReserved q) := inferInstanceAs (Decidable (_ ∨ _))

def bootEntry (k e : UInt64) : Prop := e = if k = 0 then pdTable ||| 0x007 else 0

theorem BootTables.keep {m m' : Memory} (h : BootTables m)
    (hsame : ∀ q, IsPage q → bootReserved q → SamePage q m.phys m'.phys) : BootTables m' := by
  obtain ⟨hpml4, hpdpt, hpd⟩ := isPage_boot
  refine ⟨fun i hi => ?_, fun i hi => ?_, fun i hi => ?_⟩
  · rw [entry_same (hsame _ hpml4 (Or.inl rfl)) hpml4 hi, h.pml4 i hi]
  · rw [entry_same (hsame _ hpdpt (Or.inr (Or.inl rfl))) hpdpt hi, h.pdpt i hi]
  · rw [entry_same (hsame _ hpd (Or.inr (Or.inr (Or.inl rfl)))) hpd hi, h.pd i hi]

/-- The root that stage 2 leaves for the kernel. -/
def bootRoot (mem : Memory) : KernelRoot where
  cr3 := pml4Table
  reserved := bootReserved
  phys := (protectedModeEntry mem).phys
  root := bootEntry
  copied := by
    intro m hsame k hk _
    have htables := (BootTables.built mem).keep hsame
    have hpdpt : pageOf (m.entry pml4Table 0) = pdptTable := by
      rw [htables.pml4 0 (by decide)]
      decide
    rw [hpdpt, bootEntry, htables.pdpt k hk]

theorem bootRoot_phys (mem : Memory) : (bootRoot mem).phys = (protectedModeEntry mem).phys := by
  simp only [bootRoot]

theorem bootRoot_reserved (mem : Memory) : (bootRoot mem).reserved = bootReserved := rfl

/-! ## The walk

The walk is followed from the root of a space down. Two ways lead to a page that ring 3 may touch:
the entries copied from stage 2's tables, which are user entries, and the space's own table for the
window.
-/

/-- The page of a window's address, as the processor finds it. -/
def windowWalk (pt vaddr : UInt64) (m : Memory) : Option Translation :=
  let pte := m.entry pt (tableIndex 12 vaddr)
  if entryPresent pte then some ⟨entryFrame pte + (vaddr &&& 0xfff), entryUser pte⟩ else none

/-- A table of a space is found again from the entry that leads to it. -/
theorem frame_of_use {q : UInt64} {o : PageUse} (hreserved : ∀ q, bootReserved q → use q = some .reserved)
    (hq : IsPage q) (huse : use q = some o) (hne : o ≠ .reserved) :
    q.toNat < 2 ^ 52 ∧ entryFrame (q ||| 0x007) = q := by
  have hlow : q.toNat < 2 ^ 52 := by
    by_contra hhigh
    rw [hreserved q (Or.inr (Or.inr (Or.inr (by omega)))), Option.some.injEq] at huse
    exact hne huse.symm
  exact ⟨hlow, (entry_table hq).2.2.2.2 hlow⟩

/-- **What an isolated space translates**: the first gigabyte onto itself, for ring 3 too, and
    what its window has. -/
theorem space_walk (hboot : BootTables m) (hreserved : ∀ q, bootReserved q → use q = some .reserved)
    (h : SpaceTables bootEntry use i a m) (v : UInt64) : m.pageWalk a.info.cr3 v =
      if v.toNat < 2 ^ 30 then some ⟨v, true⟩
      else if InUserWindow v.toNat then windowWalk a.userPt v m
      else none := by
  obtain ⟨hpt, pdpt, pd, hupper⟩ := h
  obtain ⟨hpml4, hpdpt, hpd⟩ := hupper.pages
  obtain ⟨hpml4use, hpdptuse, hpduse⟩ := hupper.uses
  -- the entries that lead down from the root, and the frames they name
  have hcr3 : entryFrame a.info.cr3 = a.info.cr3 := by
    have hlow := (frame_of_use hreserved hpml4 hpml4use (by simp)).1
    rw [← UInt64.toNat_inj, entryFrame, toNat_and_mask 12 40 _ (by decide)]
    rw [IsPage, pageBytes] at hpml4
    omega
  have hframe₁ := (frame_of_use hreserved hpdpt hpdptuse (by simp)).2
  have hframe₂ := (frame_of_use hreserved hpd hpduse (by simp)).2
  have hframe₃ := (frame_of_use hreserved hpt.page hpt.used (by simp)).2
  obtain ⟨hpresent₁, huser₁, -, -, -⟩ := entry_table hpdpt
  obtain ⟨hpresent₂, huser₂, hlarge₂, -, -⟩ := entry_table hpd
  obtain ⟨hpresent₃, huser₃, hlarge₃, -, -⟩ := entry_table hpt.page
  obtain ⟨hkernel, hpresent₄, huser₄, hlarge₄⟩ : entryFrame (pdTable ||| 0x007) = pdTable ∧
      entryPresent (pdTable ||| 0x007) = true ∧ entryUser (pdTable ||| 0x007) = true ∧
      entryLarge (pdTable ||| 0x007) = false := by decide
  have hwindow := inUserWindow_iff v.toNat
  have houtside : 0x40200000 ≤ v.toNat → ¬ InUserWindow v.toNat := fun hhigh hin => by
    rw [hwindow] at hin
    omega
  rw [Memory.pageWalk, hcr3, hupper.pml4 _ (tableIndex_lt 39 v)]
  -- the walk goes level by level, and so do the cases: what is out of reach at one ends there
  by_cases hcanon : v >>> 47 ≠ 0 ∧ v >>> 47 ≠ 0x1ffff
  · have hhigh : ¬ v.toNat < 2 ^ 47 := fun hlow => canonical_of_lt hlow hcanon
    rw [if_pos hcanon, if_neg (by omega), if_neg (houtside (by omega))]
  rw [if_neg hcanon]
  by_cases h39 : tableIndex 39 v = 0
  swap
  · have hhigh : ¬ v.toNat < 2 ^ 39 := fun hlow => h39 (by
      rw [tableIndex_eq_zero (by decide), show (39 : UInt64).toNat = 39 from rfl]
      omega)
    rw [if_neg h39, if_neg (c := v.toNat < 2 ^ 30) (by omega), if_neg (houtside (by omega))]
    rfl
  have hbelow := canonical_low hcanon h39
  have h30 : (tableIndex 30 v).toNat = v.toNat / 2 ^ 30 := by
    rw [toNat_tableIndex (by decide), show (30 : UInt64).toNat = 30 from rfl]
    omega
  simp only [h39, if_true, hpresent₁, hframe₁, huser₁, Bool.not_true, Bool.false_eq_true, if_false]
  by_cases hone : tableIndex 30 v = 1
  · -- the second gigabyte: the space's own page directory
    rw [hone, show (1 : UInt64).toNat = 1 from rfl] at h30
    rw [hone, hupper.window, hlarge₂, hpresent₂, huser₂, hframe₂,
      if_neg (c := v.toNat < 2 ^ 30) (by omega)]
    simp only [Bool.not_true, Bool.false_eq_true, if_false, Bool.and_self]
    have h21 : tableIndex 21 v = 0 ↔ InUserWindow v.toNat := by
      rw [tableIndex_eq_zero (by decide), show (21 : UInt64).toNat = 21 from rfl, hwindow]
      omega
    rw [Memory.walkPd, hupper.pd _ (tableIndex_lt 21 v)]
    by_cases hin : InUserWindow v.toNat
    · simp only [h21.mpr hin, if_true, hin, hpresent₃, hlarge₃, huser₃, hframe₃, Bool.not_true,
        Bool.false_eq_true, if_false, Bool.true_and, Bool.and_self, windowWalk]
      cases entryPresent (m.entry a.userPt (tableIndex 12 v)) <;> rfl
    · rw [if_neg (fun h0 => hin (h21.mp h0)), if_neg hin]
      rfl
  · have hcopied := hupper.copied _ (tableIndex_lt 30 v) hone
    rw [bootEntry] at hcopied
    rw [hcopied]
    by_cases hzero : tableIndex 30 v = 0
    · -- the first gigabyte: the page directory of stage 2
      have hlow : v.toNat < 2 ^ 30 := by
        rw [hzero, UInt64.toNat_zero] at h30
        omega
      simp only [hzero, if_true, hpresent₄, huser₄, hlarge₄, hkernel, if_pos hlow, Bool.not_true,
        Bool.false_eq_true, if_false, Bool.and_self]
      exact boot_walkPd hboot hlow
    · have hne₀ : (tableIndex 30 v).toNat ≠ 0 := fun h0 => hzero (UInt64.toNat_inj.mp h0)
      have hne₁ : (tableIndex 30 v).toNat ≠ 1 := fun h1 => hone (UInt64.toNat_inj.mp h1)
      rw [if_neg hzero, if_neg (c := v.toNat < 2 ^ 30) (by omega), if_neg (houtside (by omega))]
      rfl

/-! ## Runs from boot

The tables of a space stay apart from the pages of all windows in every run, by `SpacesMapped`. What
is needed on top is that the root was made of stage 2's tables.
-/

theorem protectedModeEntry_cr3 (mem : Memory) : (protectedModeEntry mem).cr3 = pml4Table := rfl

/-- Every page of a machine whose memory ends by 2^52, the most a physical address can be, is a
    new one. -/
theorem fresh_boot {entries : List E820Entry}
    (hphys : ∀ e ∈ entries, e.base.toNat + e.length.toNat ≤ 2 ^ 52) (cr3 : UInt64)
    (phys : UInt64 → UInt8) :
    Fresh (fun q => if bootReserved q then some .reserved else none)
      ((memoryInit entries).memory cr3 phys) := by
  generalize hm : (memoryInit entries).memory cr3 phys = m
  have hbytes : pageBytes = 4096 := rfl
  have hnext : m.allocNext = (memoryInit entries).allocNext := by rw [← hm]; rfl
  have hlimit : m.allocLimit = (memoryInit entries).allocLimit := by rw [← hm]; rfl
  have haligned : IsPage m.allocNext := by rw [hnext]; exact memoryInit_aligned entries
  have hstart : 0x200000 ≤ m.allocNext.toNat ∧ m.allocNext.toNat ≤ 2 ^ 52 + 0x200000 ∧
      m.allocLimit.toNat ≤ 2 ^ 52 := by
    rw [hnext, hlimit]
    cases hchosen : chosenRegion entries with
    | none =>
      obtain ⟨hbegin, hend⟩ := memoryInit_none hchosen
      rw [hbegin, hend]
      decide
    | some e =>
      have hstop := hphys e (chosenRegion_mem hchosen).1
      obtain ⟨hbegin, hend⟩ := memoryInit_some hchosen (by rw [regionStop]; omega)
      rw [hbegin, hend, regionStart, regionStop, hbytes]
      omega
  refine ⟨haligned, fun n => pageAllocs_nodup n (by omega) (by omega),
    fun n p hp => if_neg ?_⟩
  have hfrom := (pageAllocs_sorted n (by omega) (by omega)).1 p hp
  have hwithin := (pageAllocs_within n haligned (by omega) (by omega) p hp).2
  have hboot : pml4Table.toNat = 0x9000 ∧ pdptTable.toNat = 0xa000 ∧ pdTable.toNat = 0xb000 := by decide
  rintro (heq | heq | heq | hhigh)
  · rw [heq] at hfrom
    omega
  · rw [heq] at hfrom
    omega
  · rw [heq] at hfrom
    omega
  · omega

/-- The kernel's spaces as they are after boot and a run. -/
def spacesRun (entries : List E820Entry) (mem : Memory) (ops : List SpaceOp) : Aspaces :=
  let boot := protectedModeEntry mem
  runAll SpaceOp.run ops (aspaceInit ((memoryInit entries).memory boot.cr3 boot.phys))

theorem spacesMapped_boot {entries : List E820Entry}
    (hphys : ∀ e ∈ entries, e.base.toNat + e.length.toNat ≤ 2 ^ 52) (mem : Memory) :
    SpacesMapped (bootRoot mem) (fun q => if bootReserved q then some .reserved else none)
      (aspaceInit ((memoryInit entries).memory (protectedModeEntry mem).cr3
        (protectedModeEntry mem).phys)) := by
  apply SpacesMapped.init (fresh_boot hphys _ _)
  · exact fun q hq => if_pos hq
  · exact fun q _ _ => SamePage.refl q _
  · exact protectedModeEntry_cr3 mem

/-- **The walk from the root of an isolated space**, in every state of a run from boot. -/
theorem spacesRun_walk (entries : List E820Entry)
    (hphys : ∀ e ∈ entries, e.base.toNat + e.length.toNat ≤ 2 ^ 52) (mem : Memory)
    (ops : List SpaceOp) (hslot : (spacesRun entries mem ops).table i = some a)
    (hisolated : a.info.isolated = true) (v : UInt64) :
    (spacesRun entries mem ops).memory.pageWalk a.info.cr3 v =
      if v.toNat < 2 ^ 30 then some ⟨v, true⟩
      else if InUserWindow v.toNat then windowWalk a.userPt v (spacesRun entries mem ops).memory
      else none := by
  obtain ⟨use, hmapped⟩ := (spacesMapped_boot hphys mem).runAll ops
  rw [← spacesRun] at hmapped
  have hkept := hmapped.kept
  rw [bootRoot_phys, bootRoot_reserved] at hkept
  have hboot : BootTables (spacesRun entries mem ops).memory := (BootTables.built mem).keep hkept
  have hslots := hmapped.slots i a hslot
  have htables := hslots.user fun hkind => by
    rw [(hslots.kernel hkind).2] at hisolated
    exact absurd hisolated (by simp)
  exact space_walk hboot hmapped.reserved htables v

/-- **Ring 3 reaches the identity map and the window**, and nothing else: an address that an
    isolated space translates with the user bit at every level is in one of them.

    `hphys` keeps the firmware's map within the addresses an entry can hold. `mem` is the memory
    the tables of stage 2 are built in, and `ops` any calls on any spaces. The statement is about
    each space that is there then, and about every address. -/
theorem isolated_user_reach (entries : List E820Entry)
    (hphys : ∀ e ∈ entries, e.base.toNat + e.length.toNat ≤ 2 ^ 52) (mem : Memory)
    (ops : List SpaceOp) :
    let s := spacesRun entries mem ops
    ∀ i a, s.table i = some a → a.info.isolated = true → ∀ v t,
      s.memory.pageWalk a.info.cr3 v = some t → t.user = true →
        v.toNat < 2 ^ 30 ∨ InUserWindow v.toNat := by
  intro s i a hslot hisolated v t hwalk _
  rw [spacesRun_walk _ hphys mem ops hslot hisolated v] at hwalk
  by_cases hlow : v.toNat < 2 ^ 30
  · exact Or.inl hlow
  · by_cases hin : InUserWindow v.toNat
    · exact Or.inr hin
    · rw [if_neg hlow, if_neg hin] at hwalk
      exact absurd hwalk (by simp)

/-- A machine with 128 MiB, and the space of a program. -/
def sampleSpaces : Aspaces :=
  spacesRun [⟨0x100000, 0x7f00000, 1⟩] blankMemory [.create .userShared none]

theorem sampleSpaces_isolated : ∃ a, sampleSpaces.table 1 = some a ∧ a.info.isolated = true := by
  have hisolated : (sampleSpaces.table 1).any (fun a => a.info.isolated) = true := by decide +kernel
  cases hslot : sampleSpaces.table 1 with
  | none =>
    rw [hslot] at hisolated
    exact absurd hisolated (by simp)
  | some a =>
    rw [hslot, Option.any_some] at hisolated
    exact ⟨a, rfl, hisolated⟩

theorem isolated_user_reach_sample : ∃ a, sampleSpaces.table 1 = some a ∧ a.info.isolated = true ∧
    ∀ v t, sampleSpaces.memory.pageWalk a.info.cr3 v = some t → t.user = true →
      v.toNat < 2 ^ 30 ∨ InUserWindow v.toNat := by
  obtain ⟨a, hslot, hisolated⟩ := sampleSpaces_isolated
  exact ⟨a, hslot, hisolated, isolated_user_reach [⟨0x100000, 0x7f00000, 1⟩] (by decide) blankMemory
    [.create .userShared none] 1 a hslot hisolated⟩

/-- The kernel's image, from 64 KiB on, is open to ring 3 in an isolated space. -/
theorem isolated_user_reach_kernel : ∃ a, sampleSpaces.table 1 = some a ∧ a.info.isolated = true ∧
    ∃ v t, sampleSpaces.memory.pageWalk a.info.cr3 v = some t ∧ t.user = true ∧
      ¬ InUserWindow v.toNat := by
  obtain ⟨a, hslot, hisolated⟩ := sampleSpaces_isolated
  refine ⟨a, hslot, hisolated, 0x10000, ⟨0x10000, true⟩, ?_, rfl, by decide⟩
  have hwalk := spacesRun_walk [⟨0x100000, 0x7f00000, 1⟩] (by decide) blankMemory
    [.create .userShared none] hslot hisolated 0x10000
  rw [if_pos (by decide)] at hwalk
  exact hwalk

end Proof
end BumbelBee
